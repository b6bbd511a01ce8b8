import ModalEditing.Proofs.Surface.Anchoring
import ModalEditing.Screen

namespace ModalEditing

namespace State

/-- The state in which a toggle tells of the new flag, before it has entered another mode. -/
def flipped (s : State) : State := { s with enabled := !s.enabled }

theorem enabled_steered_toggle (s : State) : (s.steered .toggle).enabled = !s.enabled := by
  simp only [steered]
  cases h : s.enabled <;> rfl

theorem quiet_changes {old new : State} (h : old.enabled = new.enabled) (now : State) :
    ∀ o ∈ ((old.changes new).map (⟨·, now⟩)).map Output.moment, o.flag? = none := by
  unfold changes
  rw [if_pos h, List.nil_append]
  split <;> simp [Output.flag?]

/-- A toggle tells of the new flag at once, and of no flag after that. -/
theorem moments_toggle (s : State) : ∃ r rest,
    s.toggle.moments
      = ⟨.report r, s.flipped⟩ :: ⟨.event (.enabled (!s.enabled)), s.flipped⟩ :: rest ∧
    ∀ o ∈ rest.map Output.moment, o.flag? = none := by
  have hnew : s.enabled ≠ s.flipped.enabled := by simp [flipped]
  have hmode : s.mode = s.flipped.mode := rfl
  -- The flag changes first. What is dropped or entered after that leaves it as it is.
  obtain ⟨next, henabled, htoggle⟩ : ∃ next, s.flipped.enabled = next.enabled ∧
      s.toggle = ((Turn.become ⟨s, []⟩ s.flipped).become next).publish s := by
    cases he : s.enabled with
    | true => exact ⟨s.flipped.resetPending, rfl, by simp [toggle, setEnabled, he, flipped]⟩
    | false => exact ⟨s.flipped.switch .normal, rfl, by simp [toggle, setEnabled, he, flipped]⟩
  obtain ⟨r, hfirst⟩ : ∃ r, s.changes s.flipped = [.report r, .event (.enabled (!s.enabled))] := by
    unfold changes
    rw [if_neg hnew, if_pos hmode]
    exact ⟨_, rfl⟩
  have hsecond := quiet_changes henabled next
  rw [htoggle]
  unfold Turn.publish
  split
  · refine ⟨r, (s.flipped.changes next).map (⟨·, next⟩), ?_, hsecond⟩
    simp [Turn.become, Turn.tell, hfirst]
  · refine ⟨r, (s.flipped.changes next).map (⟨·, next⟩) ++ [⟨.event (.state next), next⟩], ?_, ?_⟩
    · simp [Turn.become, Turn.tell, hfirst]
    · rw [List.map_append]
      exact Output.quiet_append hsecond (by simp [Output.flag?])

end State

namespace Screen
variable {s : Screen} {ds : Store.Depths} {os : List Output}

/-- Outputs that tell of no flag leave the editor and the settings alone. -/
theorem settle_of_quiet (s : Screen) (ds : Store.Depths) (h : ∀ o ∈ os, o.flag? = none) :
    ∃ s', s.settle ds os = (s', none) ∧ s'.editor = s.editor ∧ s'.shelf = s.shelf ∧
      s'.mounted = s.mounted := by
  induction os generalizing s with
  | nil => exact ⟨s, rfl, rfl, rfl, rfl⟩
  | cons o os ih =>
    have ho := h o List.mem_cons_self
    have hos : ∀ o ∈ os, o.flag? = none := fun o' ho' => h o' (List.mem_cons_of_mem _ ho')
    cases o with
    | line text => exact ih s hos
    | request d => exact ih (s.openSearch d) hos
    | moment m =>
      obtain ⟨notice, st⟩ := m
      cases notice with
      | report r => exact ih s hos
      | event ev =>
        cases ev with
        | enabled b => cases ho
        | state p => exact ih (s.display _) hos
        | action a => exact ih s hos
        | mode m => exact ih s hos

theorem take_of_quiet (s : Screen) (ds : Store.Depths) {e : Editor}
    (h : ∀ o ∈ e.desk.outputs, o.flag? = none) :
    ∃ s', s.take ds e = (s', none) ∧ s'.editor = { e with desk.outputs := [] } ∧ s'.shelf = s.shelf ∧
      s'.mounted = s.mounted :=
  settle_of_quiet { s with editor := { e with desk.outputs := [] } } ds h

theorem control_desk (e : Editor) (c : State.Control) :
    (e.control c).desk = { e.desk with
      state := e.state.steered c
      outputs := e.desk.outputs ++ (e.state.control c).moments.map .moment } := by
  rw [← State.control_state]
  rfl

/-- How a toggle ends. The flag is switched before it is stored: where that is refused, the text area is
not told whether it may be typed in. -/
inductive Toggled (s : Screen) (ds : Store.Depths) : Screen × Option Store.Failure → Prop
  | refused {shelf : Store.Shelf} {f : Store.Failure} {s' : Screen}
      (set : s.shelf.set ds Store.Shelf.enabledKey (.bool (!s.state.enabled)) = (shelf, .error f))
      (editor : s'.editor = { s.editor with
        desk.state := s.state.flipped, desk.outputs := [] })
      (mounted : s'.mounted = s.mounted) : Toggled s ds (s', some f)
  | stored {shelf : Store.Shelf} {ok : Bool} {s' : Screen}
      (set : s.shelf.set ds Store.Shelf.enabledKey (.bool (!s.state.enabled)) = (shelf, .ok ok))
      (editor : s'.editor = { s.editor with
        desk.state := s.state.steered .toggle, desk.outputs := []
        desk.area.readOnly := !s.state.enabled })
      (mounted : s'.mounted = s.mounted) : Toggled s ds (s', none)

theorem toggled (s : Screen) (ds : Store.Depths) (hs : s.editor.desk.outputs = []) :
    Toggled s ds (s.toggle ds) := by
  obtain ⟨r, rest, hmoments, hquiet⟩ := s.state.moments_toggle
  have hdesk := control_desk s.editor .toggle
  have houtputs : (s.editor.control .toggle).desk.outputs = .moment ⟨.report r, s.state.flipped⟩
      :: .moment ⟨.event (.enabled (!s.state.enabled)), s.state.flipped⟩ :: rest.map .moment := by
    have hall : (s.editor.state.control .toggle).moments = s.state.toggle.moments := rfl
    rw [hdesk, hs, hall, hmoments]
    rfl
  have hcontrol : s.control ds .toggle
      = settle { s with editor := { s.editor.control .toggle with desk.outputs := [] } } ds
        (.moment ⟨.event (.enabled (!s.state.enabled)), s.state.flipped⟩ :: rest.map .moment) := by
    simp only [control, take, Editor.flush, houtputs, settle]
  cases hset : s.shelf.set ds Store.Shelf.enabledKey (.bool (!s.state.enabled)) with
  | mk shelf result =>
    cases result with
    | error f =>
      simp only [settle, hset] at hcontrol
      simp only [toggle, hcontrol]
      exact .refused hset rfl rfl
    | ok ok =>
      simp only [settle, hset] at hcontrol
      obtain ⟨s', hsettle, heditor, -, hmounted⟩ := settle_of_quiet
        { s with shelf, editor := { s.editor.control .toggle with desk.outputs := [] } } ds hquiet
      rw [hsettle] at hcontrol
      simp only [toggle, hcontrol]
      refine .stored hset ?_ hmounted
      have henabled : s'.state.enabled = !s.state.enabled := by
        rw [state, heditor]
        exact (congrArg State.enabled (State.control_state _ _)).trans s.state.enabled_steered_toggle
      simp only [withArea, area, henabled, heditor, hdesk]
      rfl

theorem toggle_of_refused (hs : s.editor.desk.outputs = []) {shelf : Store.Shelf} {f : Store.Failure}
    (hset : s.shelf.set ds Store.Shelf.enabledKey (.bool (!s.state.enabled)) = (shelf, .error f)) :
    (s.toggle ds).2 = some f ∧ (s.toggle ds).1.editor = { s.editor with
      desk.state := s.state.flipped, desk.outputs := [] } := by
  have htoggled := toggled s ds hs
  generalize s.toggle ds = r at htoggled ⊢
  cases htoggled with
  | refused set editor mounted =>
    rw [hset] at set
    obtain ⟨rfl, herror⟩ := Prod.mk.inj set
    exact ⟨congrArg some (Except.error.inj herror).symm, editor⟩
  | stored set editor mounted =>
    rw [hset] at set
    cases (Prod.mk.inj set).2

end Screen
end ModalEditing
