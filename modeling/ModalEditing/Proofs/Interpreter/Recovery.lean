import ModalEditing.Proofs.Interpreter.Station

namespace ModalEditing

theorem Binding.target?_eq_some_iff {b : Binding} {name : String} : b.target? = some name ↔
    (b.kind = .edit ∨ b.kind = .modeChange) ∧ b.switchTo = some name ∧ name ≠ "" := by
  unfold target?
  cases hk : b.kind <;> simp [Option.filter_eq_some_iff]

theorem Mode.parse_error {name : String} {e : UnknownName} (h : Mode.parse name = .error e) :
    e = ⟨.mode, name⟩ := by
  unfold parse at h
  split at h
  · cases h
  · exact (Except.error.inj h).symm

namespace State
variable {s : State} {t : Keymap} {k : Key} {b : Binding} {f : Fault}

/-- Why a binding whose keys are complete is not carried out, and the state that is left. That there are
too many digits is found first, when nothing has been done; that what the binding leads to is no mode,
when what was pending has been dropped. -/
inductive Failing (s : State) (b : Binding) : Fault → State → Prop
  | count (counted : b.counted = true) (many : Number.digitLimit < s.digits.length) :
    Failing s b (.badCount (.tooLong s.digits.length)) s
  | mode {name : String} (kind : b.kind = .edit ∨ b.kind = .modeChange)
      (leads : b.switchTo = some name) (named : name ≠ "") (unknown : ∀ m : Mode, m.name ≠ name)
      (few : b.counted = true → s.digits.length ≤ Number.digitLimit) :
    Failing s b (.badMode ⟨.mode, name⟩) { s with digits := "", leader := "" }

theorem Consistent.failing (h : s.Consistent) (hf : (s.resolve b).2 = .error f) :
    Failing s b f (s.resolve b).1 := by
  have hlong (hc : b.counted = true ∧ Number.digitLimit < s.digits.length) :
      s.resolve b = (s, .error (.badCount (.tooLong s.digits.length))) := by
    rw [resolve_eq, h.countFor_eq, if_pos hc]
  have hr := h.resolving b
  generalize s.resolve b = r at hr hf hlong
  cases hr with
  | tooLong hc hl =>
    obtain rfl := Except.error.inj hf
    exact .count hc hl
  | lost name e ht hm =>
    obtain rfl := Except.error.inj hf
    obtain ⟨hkind, hleads, hnamed⟩ := Binding.target?_eq_some_iff.mp ht
    have hfew : b.counted = true → s.digits.length ≤ Number.digitLimit := by
      intro hc
      by_contra hl
      -- With too many digits the fault would have been another one.
      have hother := congrArg Prod.snd (hlong ⟨hc, Nat.not_le.mp hl⟩)
      cases hother
    rw [Mode.parse_error hm]
    exact .mode hkind hleads hnamed (Mode.parse_eq_error hm) hfew
  | done s' a hd hc hm => cases hf

theorem Failing.enabled {s' : State} (h : Failing s b f s') : s'.enabled = s.enabled := by
  cases h <;> rfl

theorem Failing.news {s' : State} (h : Failing s b f s') : s.news s' = [] := by
  cases h <;> simp [State.news]

end State

namespace Station
variable {s : Station}

end Station
end ModalEditing
