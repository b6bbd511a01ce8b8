import ModalEditing.Proofs.Interpreter.Consistent

namespace ModalEditing

namespace Session
variable {s : Session}

/-- The leader waited for is one of the keymap's in the group in use. -/
def LeaderKnown (s : Session) : Prop :=
  s.state.leader ≠ "" →
    ∃ g, s.state.mode.group? = some g ∧ s.keymap.isLeader g s.state.leader = true

theorem leaderKnown_of_idle (h : s.state.Idle) : LeaderKnown s := fun hl => absurd h.2 hl

theorem leaderKnown_of_reading {s : State} {t : Keymap} {k : Key} {r : State × Except Fault Action}
    (h : LeaderKnown ⟨s, t⟩) (hc : s.Consistent) (hr : State.Reading s t k r) :
    LeaderKnown ⟨r.1, t⟩ := by
  cases hr with
  | quit hn hm => exact leaderKnown_of_idle (s.idle_switch .normal)
  | cancel hn hm => exact leaderKnown_of_idle s.idle_resetPending
  | text hn hm => exact h
  | digit g hn hm hd => exact h
  | leader g hn hm hs hl => exact fun _ => ⟨g, hm, hl⟩
  | unknown g hn hm hd hf => exact leaderKnown_of_idle s.idle_resetPending
  | command g b hb hr =>
    cases hr ▸ hc.resolving b with
    | tooLong hc hl => exact h
    | lost name e ht hm => exact leaderKnown_of_idle s.idle_resetPending
    | done s' a hp hc hm => exact leaderKnown_of_idle hp.idle

theorem leaderKnown_steered {s : State} {t : Keymap} (h : LeaderKnown ⟨s, t⟩) (c : State.Control) :
    LeaderKnown ⟨s.steered c, t⟩ := by
  cases c with
  | setMode m => exact leaderKnown_of_idle (s.idle_switch m)
  | enable => exact leaderKnown_of_idle (State.idle_switch _ .normal)
  | disable => exact leaderKnown_of_idle (State.idle_resetPending _)
  | toggle =>
    simp only [State.steered]
    split
    · exact leaderKnown_of_idle (State.idle_resetPending _)
    · exact leaderKnown_of_idle (State.idle_switch _ .normal)
  | yank text => exact h
  | pattern p => exact h

theorem leaderKnown_step (h : LeaderKnown s) (hc : s.state.Consistent) (c : Call)
    (ht : (s.step c).keymap = s.keymap) : LeaderKnown (s.step c) := by
  have hs := s.stepping c
  have he : s.step c = ⟨(s.step c).state, s.keymap⟩ := by rw [← ht]
  rw [he]
  generalize (s.step c).state = s' at hs ⊢
  cases hs with
  | same => exact h
  | read k _ => exact leaderKnown_of_reading h hc (s.state.reading s.keymap k)
  | steered c => exact leaderKnown_steered h c

/-- A call leaves the keymap alone or raises its revision. -/
theorem keymap_step (s : Session) (c : Call) :
    (s.step c).keymap = s.keymap ∨ s.keymap.revision < (s.step c).keymap.revision := by
  cases c with
  | edit r =>
    have hr := s.keymap.revision_answer r
    by_cases hn : s.keymap.changes r = 0
    · exact .inl (Keymap.answer_eq_self hn)
    · right
      change s.keymap.revision < (s.keymap.answer r).1.revision
      omega
  | _ => exact .inl rfl

theorem revision_le_run (s : Session) (cs : List Call) :
    s.keymap.revision ≤ (s.run cs).keymap.revision := by
  induction cs generalizing s with
  | nil => exact Nat.le_refl _
  | cons c cs ih =>
    have hle := ih (s.step c)
    rcases s.keymap_step c with h | h
    · rwa [h] at hle
    · exact (Nat.le_of_lt h).trans hle

/-- Revisions never fall, so a keymap that is the same at the end has been the same throughout. -/
theorem leaderKnown_run (h : LeaderKnown s) (hc : s.state.Consistent) (cs : List Call)
    (ht : (s.run cs).keymap = s.keymap) : LeaderKnown (s.run cs) := by
  induction cs generalizing s with
  | nil => exact h
  | cons c cs ih =>
    -- A first call that changes the keymap would leave its revision higher to the end.
    have hstep : (s.step c).keymap = s.keymap := by
      rcases s.keymap_step c with hs | hs
      · exact hs
      · have hle := (s.step c).revision_le_run cs
        rw [← run_cons, ht] at hle
        omega
    exact ih (leaderKnown_step h hc c hstep) (consistent_step hc c) (ht.trans hstep.symm)

/-- In every session, failed calls and changed keymaps included: what is typed of a count is a count,
and in normal mode; no leader is waited for in insert mode, and nothing while disabled; a leader
waited for is one of the keymap's, if that has not changed since none was; and actions have the count
one in the visual modes and at least one in all. Sessions have no observers, so calls that one of them
makes fail are left out. -/
theorem pending_fits (enabled : Bool) (t : Keymap) (before since : List Call) :
    let mid := (fresh enabled t).run before
    let now := mid.run since
    Number.IsCount now.state.digits.toList ∧
    (now.state.digits ≠ "" → now.state.mode = .normal) ∧
    (now.state.leader ≠ "" → now.state.mode ≠ .insert) ∧
    (now.state.enabled = false → now.state.digits = "" ∧ now.state.leader = "") ∧
    (mid.state.leader = "" → now.keymap = mid.keymap → now.state.leader ≠ "" →
      ∃ g, now.state.mode.group? = some g ∧ now.keymap.isLeader g now.state.leader = true) ∧
    (∀ k a, (now.state.handle now.keymap k).2 = .ok a →
      (now.state.mode.isVisual = true → a.count = 1) ∧ 1 ≤ a.count) := by
  intro mid now
  have hmid : mid.state.Consistent := consistent_run (State.Consistent.fresh enabled) before
  have hnow : now.state.Consistent := consistent_run hmid since
  refine ⟨hnow.count, hnow.normal_of_digits, hnow.not_insert_of_leader, hnow.idle_of_disabled, ?_, ?_⟩
  · intro hl ht
    exact leaderKnown_run (fun hne => absurd hl hne) hmid since ht
  · intro k a ha
    refine ⟨?_, a.count_pos⟩
    intro hv
    cases he : now.state.enabled with
    | false =>
      rw [State.handle_of_disabled he] at ha
      obtain rfl := Except.ok.inj ha
      rfl
    | true =>
      rw [(State.handle_of_enabled he now.keymap k).2] at ha
      have hd : now.state.digits = "" := by
        by_contra hd
        rw [hnow.normal_of_digits hd] at hv
        exact nomatch hv
      exact hnow.count_of_reading hd (now.state.reading now.keymap k) ha

end Session
end ModalEditing
