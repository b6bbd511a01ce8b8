import ModalEditing.Editor
import ModalEditing.Proofs.Interpreter.Outcome
import ModalEditing.Proofs.Interpreter.Typing

namespace ModalEditing

theorem Mode.name_inj {m m' : Mode} (h : m.name = m'.name) : m = m' := by
  have hp := parse_name m
  rw [h, parse_name] at hp
  exact (Except.ok.inj hp).symm

theorem Group.mem_all (g : Group) : g ∈ Group.all := by
  cases g <;> simp [all]

theorem Keymap.lawful_builtIn : Keymap.builtIn.Lawful := (Lawful.empty _).loadDefaults false []

namespace State
variable {s : State} {t : Keymap} {k : Key} {g : Group} {b : Binding}

theorem not_escape_of_length (h : k.token.toList.length = 1) : k.name ≠ escapeName := by
  obtain ⟨c, hc⟩ := List.length_eq_one_iff.mp h
  exact not_escape_of_digit (c := c) (String.toList_inj.mp (by simp [hc]))

/-- A key of its own completes its binding at once. -/
theorem completes_single (ht : t.Lawful) (hlen : k.token.toList.length = 1) (hm : s.mode.group? = some g)
    (hd : s.countsDigit g k.token = false) (hl : s.leader = "")
    (hf : t.find? g [k.token] = some b) : s.Completes t k g b := by
  obtain ⟨hb, hs⟩ := Keymap.find?_eq_some hf
  obtain ⟨hk, hsingle⟩ := Binding.sequence_eq_single.mp hs
  refine ⟨not_escape_of_length hlen, hm, hd, fun _ => hk ▸ ht.not_isLeader_of_single hb hsingle, ?_⟩
  rwa [typed, if_pos hl]

end State

namespace Desk
variable {d : Desk}

theorem perform?_motion {a : Action} (hk : a.kind = .motion) :
    d.perform? a = some (d.applyMotion (a.name.getD "") a.count) := by
  simp only [perform?, hk]

theorem perform?_modeChange {a : Action} (hk : a.kind = .modeChange) :
    d.perform? a = some (d.applyModeChange (a.name.getD "")) := by
  simp only [perform?, hk]

theorem perform?_edit {a : Action} (hk : a.kind = .edit) :
    d.perform? a = some (d.applyEdit (a.name.getD "") a.count) := by
  simp only [perform?, hk]

def begun (d : Desk) (a : Action) : Desk := d.report (.enter (actionSpan a))

/-- What an action leaves is reported; then the area takes typing in insert mode alone. -/
theorem apply_of_perform {d' : Desk} {a : Action} (h : (d.begun a).perform? a = some (d', none)) :
    ∃ os : List Output, d.apply a
      = ({ d' with outputs := os, area.readOnly := decide (d'.state.mode ≠ .insert) }, none) := by
  unfold begun at h
  rw [apply, h]
  exact ⟨_, rfl⟩

theorem apply_edit {a : Action} {e : EditName} (hk : a.kind = .edit)
    (hn : EditName.names.lookup (a.name.getD "") = some e) (hr : d.refusal? a.count e = none) :
    ∃ os : List Output, d.apply a = ({ (d.begun a).edit a.count e with
      outputs := os, area.readOnly := decide (((d.begun a).edit a.count e).state.mode ≠ .insert) }, none) := by
  have hr' : (d.begun a).refusal? a.count e = none := hr
  apply apply_of_perform
  simp only [perform?_edit hk, applyEdit, hn, hr']

end Desk

namespace Editor
variable {e : Editor} {p : Press} {g : Group} {b : Binding}

/-- Presses keys one after another, up to the first that fails. -/
def pressAll (e : Editor) : List Press → Except Failure Editor
  | [] => .ok e
  | p :: ps =>
    match e.press p with
    | (e', .ok _) => pressAll e' ps
    | (_, .error f) => .error f

theorem pressAll_cons {e' : Editor} {a : Action} (h : e.press p = (e', .ok a)) (ps : List Press) :
    e.pressAll (p :: ps) = e'.pressAll ps := by
  rw [pressAll, h]

theorem pressAll_append {e' : Editor} {ps : List Press} (h : e.pressAll ps = .ok e')
    (qs : List Press) : e.pressAll (ps ++ qs) = e'.pressAll qs := by
  induction ps generalizing e with
  | nil =>
    obtain rfl := Except.ok.inj h
    rfl
  | cons p ps ih =>
    rw [pressAll] at h
    split at h
    · rename_i e₁ a hp
      rw [List.cons_append, pressAll_cons hp]
      exact ih h
    · exact nomatch h

def heard (e : Editor) (p : Press) : Desk := e.desk.say [.line (keyLine e.state p.toKey)]

/-- The desk once its interpreter has handled a press, before anything is carried out. -/
def answered (e : Editor) (p : Press) : Desk :=
  (e.heard p).follow ((e.heard p).state.handle e.table p.toKey).1

theorem answered_state (he : e.state.enabled = true) (p : Press) :
    (e.answered p).state = (e.state.readKey e.table p.toKey).1 :=
  (State.handle_of_enabled he e.table p.toKey).1

theorem handle_heard (he : e.state.enabled = true) {r : Except Fault Action}
    (hr : (e.state.readKey e.table p.toKey).2 = r) :
    (e.heard p).state.handle e.table p.toKey
      = (((e.heard p).state.handle e.table p.toKey).1, r) :=
  Prod.ext rfl ((State.handle_of_enabled he e.table p.toKey).2.trans hr)

/-- A press that asks for nothing leaves the text area alone. -/
theorem press_of_nothing (he : e.state.enabled = true)
    (hr : (e.state.readKey e.table p.toKey).2 = .ok .nothing) :
    ∃ os : List Output, e.press p
      = ({ e with desk := { e.answered p with outputs := os } }, .ok .nothing) := by
  have hh := handle_heard he hr
  unfold answered
  generalize ((e.heard p).state.handle e.table p.toKey).1 = turn at hh ⊢
  unfold heard at hh
  simp only [press, hh, Action.isNone, Action.nothing]
  exact ⟨_, rfl⟩

/-- A press that asks for something leaves what carrying it out leaves. -/
theorem press_of_action (he : e.state.enabled = true) (ha : e.applies = true) {a : Action}
    (hr : (e.state.readKey e.table p.toKey).2 = .ok a) (hn : a.isNone = false) {d : Desk}
    (hd : (e.answered p).apply a = (d, none)) :
    ∃ os : List Output, e.press p = ({ e with desk := { d with outputs := os } }, .ok a) := by
  have hh := handle_heard he hr
  unfold answered at hd
  generalize ((e.heard p).state.handle e.table p.toKey).1 = turn at hh hd
  unfold heard at hh hd
  simp only [press, hh, hn, ha, Bool.not_false, Bool.and_self, if_true, hd]
  exact ⟨_, rfl⟩

/-- With no digits typed, a press that completes a binding is carried out once. -/
theorem press_of_completes (he : e.state.enabled = true) (ha : e.applies = true)
    (hs : e.state.Consistent) (hd : e.state.digits = "")
    (h : e.state.Completes e.table p.toKey g b)
    (hm : ∀ name, b.target? = some name → ∃ m : Mode, m.name = name) :
    ∃ a, State.Performed e.state b 1 (e.answered p).state a ∧
      ∀ d, (e.answered p).apply a = (d, none) →
        ∃ os : List Output, e.press p = ({ e with desk := { d with outputs := os } }, .ok a) := by
  have hcount : e.state.countOf b = 1 := by simp [State.countOf, hd]
  have hr := hs.resolving b
  rw [← State.readKey_of_completes h] at hr
  rw [answered_state he p]
  generalize hread : e.state.readKey e.table p.toKey = r at hr ⊢
  cases hr with
  | tooLong hc hl => simp [hd] at hl
  | lost name e ht hn =>
    obtain ⟨m, hname⟩ := hm name ht
    exact absurd hname (Mode.parse_eq_error hn m)
  | done s' a hp hc hm =>
    rw [hcount] at hp
    exact ⟨a, hp, fun d => press_of_action he ha (by rw [hread]) hp.isNone⟩

end Editor
end ModalEditing
