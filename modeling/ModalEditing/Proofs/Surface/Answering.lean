import ModalEditing.Proofs.Interpreter.Announcement
import ModalEditing.Proofs.Surface.Asking

namespace ModalEditing

namespace State
variable {s s' : State} {t : Keymap} {k : Key} {a : Action}

inductive Answer (s : State) (t : Keymap) : State × Except Fault Action → Prop
  | silent {s' : State} {outcome : Except Fault Action} (mode : s'.mode = s.mode)
      (nothing : ∀ a, outcome = .ok a → a.isNone = true) : Answer s t (s', outcome)
  | left (mode : s.mode ≠ .normal) :
    Answer s t (s.switch .normal, .ok (.modeChange Mode.normal.name))
  | bound {g : Group} {b : Binding} {n : ℕ} {s' : State} {a : Action} (group : s.mode.group? = some g)
      (mem : b ∈ t.bucket g) (done : Performed s b n s' a) : Answer s t (s', .ok a)

theorem Consistent.answer_of_reading (h : s.Consistent) {r : State × Except Fault Action}
    (hr : Reading s t k r) : Answer s t r := by
  have silent {s' : State} (hm : s'.mode = s.mode) : Answer s t (s', .ok .nothing) := by
    refine .silent hm fun a ha => ?_
    rw [← Except.ok.inj ha]
    rfl
  cases hr with
  | quit hn hm => exact .left hm
  | cancel hn hm => exact silent rfl
  | text hn hm => exact silent rfl
  | digit g hn hm hd => exact silent rfl
  | leader g hn hm hs hl => exact silent rfl
  | unknown g hn hm hd hf => exact silent rfl
  | command g b hc hr =>
    cases hr ▸ h.resolving b with
    | tooLong hc hl => exact .silent rfl (by simp)
    | lost name e ht hm => exact .silent rfl (by simp)
    | done s' a hd hcount hm => exact .bound hc.group (Keymap.find?_eq_some hc.found).1 hd

theorem Answer.mode_eq {r : State × Except Fault Action} (h : Answer s t r)
    (hn : ∀ a, r.2 = .ok a → a.isNone = true) : r.1.mode = s.mode := by
  cases h with
  | silent hmode _ => exact hmode
  | left => cases hn _ rfl
  | bound _ _ hdone => exact absurd (hn _ rfl) (by simp [hdone.isNone])

theorem Consistent.enabled_of_reading (hs : s.Consistent) {r : State × Except Fault Action}
    (h : Reading s t k r) : r.1.enabled = s.enabled := by
  cases h with
  | command g b hc hr =>
    cases hr ▸ hs.resolving b with
    | done s' a hd hcount hm => exact hd.enabled
    | _ => rfl
  | _ => rfl

/-- A key is handled by reading it, unless the interpreter is disabled. -/
theorem Consistent.answer (h : s.Consistent) (t : Keymap) (k : Key) :
    Answer s t ((s.handle t k).1.state, (s.handle t k).2) ∧
      (s.handle t k).1.state.enabled = s.enabled ∧ (s.handle t k).1.state.Consistent := by
  cases he : s.enabled with
  | false =>
    rw [handle_of_disabled he]
    refine ⟨.silent rfl fun a ha => ?_, he, h⟩
    rw [← Except.ok.inj ha]
    rfl
  | true =>
    obtain ⟨hstate, houtcome⟩ := handle_of_enabled he t k
    have hr := s.reading t k
    rw [hstate, houtcome]
    exact ⟨h.answer_of_reading hr, (h.enabled_of_reading hr).trans he, h.of_reading he hr⟩

theorem Consistent.of_registers (h : s.Consistent) (registers : Bank) :
    ({ s with registers := registers } : State).Consistent :=
  ⟨h.count, h.normal_of_digits, h.not_insert_of_leader, h.idle_of_disabled⟩

theorem Consistent.flags_handle (h : s.Consistent) (t : Keymap) (k : Key) :
    (s.handle t k).1.events.filterMap Event.enabled? = [] := by
  cases he : s.enabled with
  | false =>
    rw [handle_of_disabled he, Turn.events_start, List.filterMap_nil]
  | true =>
    have hsame : s.enabled = (s.readKey t k).1.enabled :=
      (h.enabled_of_reading (s.reading t k)).symm
    cases ho : (s.readKey t k).2 with
    | ok a => rw [events_handle_of_ok he ho, enabled_announcement, if_pos hsame]
    | error f => rw [events_handle_of_error he ho, enabled_announcement, if_pos hsame]

end State

theorem Output.flag?_moment (m : Moment) :
    (Output.moment m).flag? = m.notice.event?.bind Event.enabled? := by
  obtain ⟨notice, s⟩ := m
  cases notice with
  | report r => rfl
  | event ev => cases ev <;> rfl

/-- Moments among whose events none tells of the flag. -/
theorem Turn.quiet_of_flags {t : Turn} (h : t.events.filterMap Event.enabled? = []) :
    ∀ o ∈ t.moments.map Output.moment, o.flag? = none := by
  intro o ho
  obtain ⟨m, hm, rfl⟩ := List.mem_map.mp ho
  rw [Output.flag?_moment]
  cases he : m.notice.event? with
  | none => rfl
  | some ev =>
    have hev : ev ∈ t.events := List.mem_filterMap.mpr ⟨m, hm, he⟩
    exact List.filterMap_eq_nil_iff.mp h ev hev

namespace Editor
variable {e : Editor} {p : Press}

inductive Pressed (e : Editor) (p : Press) : Editor × Except Failure Action → Prop
  | silent {os : List Output} {r : Except Failure Action} (quiet : ∀ o ∈ os, o.flag? = none)
      (mode : (e.answered p).state.mode = e.state.mode)
      (nothing : ∀ a, (e.state.handle e.table p.toKey).2 = .ok a → a.isNone = true)
      (result : ∀ f, r ≠ .error (.area f)) :
    Pressed e p ({ e with desk := { e.answered p with outputs := e.desk.outputs ++ os } }, r)
  | carried {os : List Output} {a : Action} {cs : List Call} {d : Desk} {failure : Option Desk.Failure}
      (quiet : ∀ o ∈ os, o.flag? = none)
      (outcome : (e.state.handle e.table p.toKey).2 = .ok a) (acts : a.isNone = false)
      (answer : State.Answer e.state e.table ((e.answered p).state, .ok a))
      (apply : (e.answered p).apply a = (d, failure))
      (applied : Desk.Applied (e.answered p) a cs (d, failure)) :
    Pressed e p ({ e with desk := { d with outputs := e.desk.outputs ++ os } },
      match failure with
      | none => .ok a
      | some f => .error (.area f))

/-- The outputs of a desk that has answered a press begin with those before. -/
theorem outputs_answered (hc : e.state.Consistent) (p : Press) :
    ∃ os, (e.answered p).outputs = e.desk.outputs ++ os ∧ ∀ o ∈ os, o.flag? = none := by
  refine ⟨[.line (keyLine e.state p.toKey)]
    ++ (e.state.handle e.table p.toKey).1.moments.map .moment, ?_, ?_⟩
  · rw [← List.append_assoc]
    rfl
  · exact Output.quiet_append (Output.quiet_line _)
      (Turn.quiet_of_flags (hc.flags_handle e.table p.toKey))

/-- A press, with the desk that has answered it named. -/
theorem press_eq (e : Editor) (p : Press) :
    e.press p = match (e.state.handle e.table p.toKey).2 with
      | .error f => ({ e with desk := e.answered p }, .error (.key f))
      | .ok a =>
        let r := if !a.isNone && e.applies then (e.answered p).apply a else (e.answered p, none)
        match r.2 with
        | some f => ({ e with desk := r.1 }, .error (.area f))
        | none => ({ e with desk := r.1.say [.line (actionLine r.1.state a)] }, .ok a) := rfl

theorem pressed (ha : e.applies = true) (hc : e.state.Consistent) (p : Press) :
    Pressed e p (e.press p) := by
  obtain ⟨os, hos, hquiet⟩ := e.outputs_answered hc p
  obtain ⟨hanswer, -, -⟩ := hc.answer e.table p.toKey
  have hanswered : (e.state.handle e.table p.toKey).1.state = (e.answered p).state := rfl
  rw [hanswered] at hanswer
  rw [press_eq]
  cases ho : (e.state.handle e.table p.toKey).2 with
  | error f =>
    have hmode := hanswer.mode_eq (by simp [ho])
    have hsilent : Pressed e p (_, .error (.key f)) :=
      .silent hquiet hmode (by simp [ho]) (by simp)
    rw [← hos] at hsilent
    exact hsilent
  | ok a =>
    cases hn : a.isNone with
    | true =>
      have hmode := hanswer.mode_eq (by simpa [ho] using hn)
      have hline := Output.quiet_append hquiet
        (Output.quiet_line (actionLine (e.answered p).state a))
      have hsilent : Pressed e p (_, .ok a) :=
        .silent hline hmode (by simpa [ho] using hn) (by simp)
      rw [← List.append_assoc, ← hos] at hsilent
      simp only [hn]
      exact hsilent
    | false =>
      obtain ⟨cs, happlied⟩ := (e.answered p).applied a
      obtain ⟨os', hos', hquiet'⟩ := happlied.quiet
      have hall := Output.quiet_append hquiet hquiet'
      rw [ho] at hanswer
      cases hap : (e.answered p).apply a with
      | mk d failure =>
        rw [hap] at happlied hos'
        have hdesk : d.outputs = e.desk.outputs ++ (os ++ os') := by
          rw [← List.append_assoc, ← hos]
          exact hos'
        have hcond : (true && e.applies) = true := ha
        simp only [hn, Bool.not_false, hcond, if_true, hap]
        cases failure with
        | some f =>
          have hcarried := @Pressed.carried e p (os ++ os') a cs d (some f) hall ho hn hanswer hap
            happlied
          rw [← hdesk] at hcarried
          exact hcarried
        | none =>
          have hline := Output.quiet_append hall (Output.quiet_line (actionLine d.state a))
          have hcarried := @Pressed.carried e p _ a cs d none hline ho hn hanswer hap happlied
          rw [← List.append_assoc, ← hdesk] at hcarried
          exact hcarried

end Editor
end ModalEditing
