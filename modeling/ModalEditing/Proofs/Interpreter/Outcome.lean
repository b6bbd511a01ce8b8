import ModalEditing.Proofs.Interpreter.Consistent

namespace ModalEditing

theorem BindingKind.actionKind_ne_none (k : BindingKind) : k.actionKind ≠ .none := by
  cases k <;> simp [actionKind]

namespace State
variable {s s' : State} {t : Keymap} {k : Key} {a : Action}

/-- The key is added to what is pending, as a digit of the count or as the first key of a doubled
binding. -/
def Extends (s : State) (t : Keymap) (k : Key) (s' : State) (a : Action) : Prop :=
  a = .nothing ∧
    ((s.mode = .normal ∧ isDigitToken k.token = true ∧
        s' = { s with digits := s.digits ++ k.token }) ∨
      (s.leader = "" ∧ (∃ g, s.mode.group? = some g ∧ t.isLeader g k.token = true) ∧
        s' = { s with leader := k.token }))

/-- Nothing comes of the key, and of what was pending; all else stays. -/
def Drops (s s' : State) (a : Action) : Prop := a = .nothing ∧ s' = s.resetPending

/-- The action says that a mode was left, or it is that of a binding whose keys are complete. -/
def Ends (s : State) (t : Keymap) (k : Key) (s' : State) (a : Action) : Prop :=
  a.isNone = false ∧ s'.Idle ∧
    ((k.name = escapeName ∧ s.mode ≠ .normal ∧ s'.mode = .normal ∧
        a = .modeChange Mode.normal.name) ∨
      ∃ g, s.mode.group? = some g ∧ ∃ b ∈ t.bucket g, b.sequence = s.typed k.token ∧
        a.kind = b.kind.actionKind ∧ a.name = some b.action)

theorem Idle.resetPending_eq (h : s.Idle) : s.resetPending = s := by
  obtain ⟨mode, enabled, digits, leader, lastMotion, registers, search⟩ := s
  obtain ⟨rfl, rfl⟩ : digits = "" ∧ leader = "" := h
  rfl

theorem Consistent.idle_of_insert (h : s.Consistent) (hm : s.mode = .insert) : s.Idle := by
  constructor
  · by_contra hd
    have hn := h.normal_of_digits hd
    rw [hm] at hn
    exact nomatch hn
  · by_contra hl
    exact h.not_insert_of_leader hl hm

theorem insert_of_group {m : Mode} (h : m.group? = none) : m = .insert := by
  cases m <;> simp_all [Mode.group?]

theorem Performed.isNone {b : Binding} {n : ℕ} (h : Performed s b n s' a) : a.isNone = false := by
  simp only [Action.isNone, h.kind, decide_eq_false_iff_not]
  exact b.kind.actionKind_ne_none

/-- One of the three happens to every key that is read without a failure. -/
theorem Consistent.outcome_of_reading (h : s.Consistent) {r : State × Except Fault Action}
    (hr : Reading s t k r) (ha : r.2 = .ok a) :
    Extends s t k r.1 a ∨ Drops s r.1 a ∨ Ends s t k r.1 a := by
  cases hr with
  | quit hn hm =>
    obtain rfl := Except.ok.inj ha
    exact .inr (.inr ⟨rfl, s.idle_switch .normal, .inl ⟨hn, hm, rfl, rfl⟩⟩)
  | cancel hn hm =>
    obtain rfl := Except.ok.inj ha
    exact .inr (.inl ⟨rfl, rfl⟩)
  | text hn hm =>
    obtain rfl := Except.ok.inj ha
    exact .inr (.inl ⟨rfl, (h.idle_of_insert (insert_of_group hm)).resetPending_eq.symm⟩)
  | digit g hn hm hd =>
    obtain rfl := Except.ok.inj ha
    obtain ⟨rfl, hdigit, -⟩ := (s.countsDigit_iff g k.token).mp hd
    exact .inl ⟨rfl, .inl ⟨normal_of_group hm, hdigit, rfl⟩⟩
  | leader g hn hm hs hl =>
    obtain rfl := Except.ok.inj ha
    exact .inl ⟨rfl, .inr ⟨hs, ⟨g, hm, hl⟩, rfl⟩⟩
  | unknown g hn hm hd hf =>
    obtain rfl := Except.ok.inj ha
    exact .inr (.inl ⟨rfl, rfl⟩)
  | command g b hb hr =>
    -- Only a binding that is carried out yields an action.
    cases hr ▸ h.resolving b with
    | tooLong hc hl => exact nomatch ha
    | lost name e ht hm => exact nomatch ha
    | done s' a' hp hc hm =>
      obtain rfl : a' = a := Except.ok.inj ha
      obtain ⟨hmem, hseq⟩ := Keymap.find?_eq_some hb.found
      exact .inr (.inr ⟨hp.isNone, hp.idle, .inr ⟨g, hb.group, b, hmem, hseq, hp.kind, hp.name⟩⟩)

theorem Consistent.outcome (h : s.Consistent) (ha : (s.handle t k).2 = .ok a) :
    Extends s t k (s.handle t k).1.state a ∨ Drops s (s.handle t k).1.state a ∨
      Ends s t k (s.handle t k).1.state a := by
  cases he : s.enabled with
  | false =>
    rw [handle_of_disabled he] at ha ⊢
    obtain rfl := Except.ok.inj ha
    exact .inr (.inl ⟨rfl, (h.idle_of_disabled he).resetPending_eq.symm⟩)
  | true =>
    obtain ⟨hs, ho⟩ := handle_of_enabled he t k
    rw [hs]
    rw [ho] at ha
    exact h.outcome_of_reading (s.reading t k) ha

/-- What a key adds is not empty, so that something is pending afterwards. -/
theorem Extends.not_idle (h : Extends s t k s' a) : ¬ s'.Idle := by
  rintro ⟨hd, hl⟩
  rcases h.2 with ⟨-, hdigit, rfl⟩ | ⟨-, ⟨g, -, hleader⟩, rfl⟩
  · obtain ⟨c, -, hc⟩ := (isDigitToken_iff k.token).mp hdigit
    have hlength := congrArg String.length hd
    simp [hc] at hlength
  · obtain ⟨b, -, -, hb⟩ := (t.isLeader_iff g k.token).mp hleader
    exact b.key_ne (hb.trans hl)

end State

namespace Session

/-- In any session, and with any keymap, exactly one thing happens to a key that yields an action: it
extends what is pending, it drops what is pending, or it ends a command. So where a leader is waited
for and no binding consists of it and the key, the key does not act. A key whose action an observer
refuses is left out, since sessions have none. -/
theorem one_outcome (enabled : Bool) (t₀ t : Keymap) (calls : List Call) (k : Key) (a : Action) :
    let s := ((fresh enabled t₀).run calls).state
    let s' := (s.handle t k).1.state
    (s.handle t k).2 = .ok a →
    (s.Extends t k s' a ∨ s.Drops s' a ∨ s.Ends t k s' a) ∧
    ¬ (s.Extends t k s' a ∧ s.Drops s' a) ∧
    ¬ (s.Extends t k s' a ∧ s.Ends t k s' a) ∧
    ¬ (s.Drops s' a ∧ s.Ends t k s' a) ∧
    (s.leader ≠ "" → k.name ≠ escapeName →
      (∀ g, s.mode.group? = some g → ∀ b ∈ t.bucket g, b.sequence ≠ [s.leader, k.token]) →
      s.Extends t k s' a ∨ s.Drops s' a) := by
  intro s s' ha
  have hs : s.Consistent := consistent_run (State.Consistent.fresh enabled) calls
  have hone := hs.outcome ha
  refine ⟨hone, ?_, ?_, ?_, ?_⟩
  · rintro ⟨hext, -, hdrop⟩
    exact hext.not_idle (hdrop ▸ s.idle_resetPending)
  · rintro ⟨hext, hend⟩
    exact hext.not_idle hend.2.1
  · rintro ⟨⟨rfl, -⟩, hend, -⟩
    exact nomatch hend
  · intro hl hn hno
    rcases hone with hext | hdrop | ⟨-, -, hesc | ⟨g, hg, b, hb, hseq, -⟩⟩
    · exact .inl hext
    · exact .inr hdrop
    · exact absurd hesc.1 hn
    · rw [State.typed, if_neg hl] at hseq
      exact absurd hseq (hno g hg b hb)

/-- With the built-in bindings, `w` after `d` is dropped and moves nothing. -/
theorem word_after_delete_dropped :
    ∃ s, s = ((fresh true .builtIn).run [.key { name := "d" }]).state ∧ s.leader = "d" ∧
      (s.handle .builtIn { name := "w" }).2 = .ok .nothing ∧
      s.Drops (s.handle .builtIn { name := "w" }).1.state .nothing := by
  refine ⟨_, rfl, ?_⟩
  have hone := one_outcome true .builtIn .builtIn [.key { name := "d" }] { name := "w" } .nothing
  have hfacts : let s := ((fresh true .builtIn).run [.key { name := "d" }]).state
      s.leader = "d" ∧ (s.handle .builtIn { name := "w" }).2 = .ok .nothing ∧
      (∀ g, s.mode.group? = some g → ∀ b ∈ Keymap.builtIn.bucket g, b.sequence ≠ ["d", "w"]) ∧
      (s.handle .builtIn { name := "w" }).1.state.Idle := by
    unfold State.Idle
    decide +kernel
  -- The keys typed are not evaluated again.
  generalize ((fresh true .builtIn).run [.key { name := "d" }]).state = s at hone hfacts ⊢
  obtain ⟨hleader, ha, hno, hidle⟩ := hfacts
  obtain ⟨-, -, -, -, hsecond⟩ := hone ha
  refine ⟨hleader, ha, ?_⟩
  rw [hleader] at hsecond
  rcases hsecond (by decide) (by decide) hno with hext | hdrop
  · exact absurd hidle hext.not_idle
  · exact hdrop

end Session
end ModalEditing
