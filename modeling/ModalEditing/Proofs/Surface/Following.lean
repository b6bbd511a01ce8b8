import ModalEditing.Proofs.Surface.PutBack
import ModalEditing.Proofs.TextArea.Motion

namespace ModalEditing.Editor
variable {e walked selected : Editor} {t : Text} {start : Location} {p : Press}

/-- An editor in normal mode whose cursor is in this text. -/
structure Walking (t : Text) (e : Editor) : Prop where
  poised : e.Poised .normal ""
  text : e.desk.area.text = t
  cursor : e.desk.area.cursor.Within (Text.lines t)

/-- An editor that selects from a location in this text to its cursor. -/
structure Spanning (t : Text) (start : Location) (e : Editor) : Prop where
  poised : e.Poised .visual ""
  text : e.desk.area.text = t
  anchor : e.desk.anchor = some start
  start_within : start.Within (Text.lines t)
  cursor : e.desk.area.cursor.Within (Text.lines t)
  selection : e.desk.area.selection = ⟨start, e.desk.area.cursor⟩

theorem Waiting.walking (h : e.Waiting) (hc : e.desk.area.cursor.Within e.desk.area.lines) :
    Walking e.desk.area.text e := ⟨h.poised, rfl, hc⟩

/-- In normal mode the keys of a motion lead where the motion does. -/
theorem Walking.motion (h : Walking t e) {b : Binding} (hmem : b ∈ Keymap.builtIn.bucket .normal)
    {m : Motion} (hb : b.Moves false m) {ps : List Press} (hps : tokens ps = b.sequence) :
    ∃ e', e.pressAll ps = .ok e' ∧ Walking t e' ∧
      e'.desk.area.cursor = m.target (Text.lines t) e.desk.area.cursor 1 := by
  obtain ⟨hpoised, rfl, hcursor⟩ := h
  have hl : (m.target e.desk.area.lines e.desk.area.cursor 1).Within e.desk.area.lines :=
    m.target_within hcursor 1
  obtain ⟨e', hall, hpoised', -, harea⟩ := hpoised.motion rfl hmem hb hps
    (e.desk.area.moveCursor (m.target e.desk.area.lines e.desk.area.cursor 1))
    fun d hd _ _ => by rw [Desk.applyMotion_move hb.action, Desk.move, hd]
  have htext : e'.desk.area.text = e.desk.area.text := by
    rw [harea]
    rfl
  have hto : e'.desk.area.cursor = m.target e.desk.area.lines e.desk.area.cursor 1 := by
    rw [harea]
    exact TextArea.cursor_moveCursor hl false
  exact ⟨e', hall, ⟨hpoised', htext, hto ▸ hl⟩, hto⟩

/-- In visual mode the keys of a motion lead to the same place, and the selection follows. -/
theorem Spanning.motion (h : Spanning t start e) {b : Binding}
    (hmem : b ∈ Keymap.builtIn.bucket .visual) {m : Motion} (hb : b.Moves true m) {ps : List Press}
    (hps : tokens ps = b.sequence) :
    ∃ e', e.pressAll ps = .ok e' ∧ Spanning t start e' ∧
      e'.desk.area.cursor = m.target (Text.lines t) e.desk.area.cursor 1 := by
  obtain ⟨hpoised, rfl, hanchor, hstart, hcursor, -⟩ := h
  have hl : (m.target e.desk.area.lines e.desk.area.cursor 1).Within e.desk.area.lines :=
    m.target_within hcursor 1
  obtain ⟨e', hall, hpoised', hanchor', harea⟩ := hpoised.motion rfl hmem hb hps
    ((e.desk.area.moveCursor start).moveCursor
      (m.target e.desk.area.lines e.desk.area.cursor 1) true)
    fun d hd hn hmode => by
      have hvisual : d.state.mode ≠ .visualLine := by simp [hmode]
      simp only [Desk.applyMotion_select hb.action, Desk.selectTo_chars hvisual, Desk.move, hd, hn, hanchor,
        Option.getD_some]
  have htext : e'.desk.area.text = e.desk.area.text := by
    rw [harea]
    rfl
  have hto : e'.desk.area.cursor = m.target e.desk.area.lines e.desk.area.cursor 1 := by
    rw [harea]
    exact TextArea.cursor_moveCursor (a := e.desk.area.moveCursor start) hl true
  have hselection : e'.desk.area.selection
      = ⟨start, m.target e.desk.area.lines e.desk.area.cursor 1⟩ := by
    rw [harea]
    exact TextArea.selection_select hstart hl
  exact ⟨e', hall, ⟨hpoised', htext, hanchor'.trans hanchor, hstart, hto ▸ hl, hto ▸ hselection⟩, hto⟩

/-- The key that begins a selection selects nothing yet. -/
theorem Walking.begin_selection (h : Walking t e) (hp : p.toKey.token = "v") :
    ∃ e' a, e.press p = (e', .ok a) ∧ Spanning t e.desk.area.cursor e' ∧
      e'.desk.area.cursor = e.desk.area.cursor := by
  obtain ⟨hpoised, rfl, hcursor⟩ := h
  obtain ⟨b, hf, hk, hb, htarget⟩ : ∃ b, Keymap.builtIn.find? .normal ["v"] = some b ∧
      b.kind = .modeChange ∧ b.action = "visual" ∧ b.target? = some Mode.visual.name := by
    decide +kernel
  obtain ⟨e', a, hpress, hpoised', hanchor, harea⟩ := hpoised.press_entry
    (hpoised.completes rfl hp rfl rfl hf) hk htarget .visual (by rw [hb]; rfl)
    (e.desk.area.moveCursor e.desk.area.cursor) (some e.desk.area.cursor)
    fun d hd _ => by rw [← hd]; rfl
  have hto : e'.desk.area.cursor = e.desk.area.cursor := by
    rw [harea]
    exact TextArea.cursor_moveCursor hcursor false
  have hselection : e'.desk.area.selection = ⟨e.desk.area.cursor, e.desk.area.cursor⟩ := by
    rw [harea]
    exact TextArea.selection_moveCursor hcursor false
  have htext : e'.desk.area.text = e.desk.area.text := by
    rw [harea]
    rfl
  exact ⟨e', a, hpress, ⟨hpoised', htext, hanchor, hcursor, hto ▸ hcursor, hto ▸ hselection⟩, hto⟩

/-- Two editors on one text, one of which walks where the other selects. -/
structure Abreast (t : Text) (start : Location) (walked selected : Editor) : Prop where
  walking : Walking t walked
  spanning : Spanning t start selected
  cursor : selected.desk.area.cursor = walked.desk.area.cursor

/-- The keys of a motion keep the cursors together. -/
theorem Abreast.motion (h : Abreast t start walked selected) {m : String × String}
    (hm : m ∈ Keymap.visualMotions) {ps : List Press} (hps : tokens ps = Binding.sequenceOf m.1) :
    ∃ walked' selected', walked.pressAll ps = .ok walked' ∧ selected.pressAll ps = .ok selected' ∧
      Abreast t start walked' selected' := by
  obtain ⟨motion, ⟨b, hb, hbs, hbm⟩, c, hc, hcs, hcm⟩ := Keymap.exists_motion hm
  obtain ⟨walked', hwalk, hwalking, hto⟩ := h.walking.motion hb hbm (hps.trans hbs.symm)
  obtain ⟨selected', hselect, hspanning, hto'⟩ := h.spanning.motion hc hcm (hps.trans hcs.symm)
  refine ⟨walked', selected', hwalk, hselect, hwalking, hspanning, ?_⟩
  rw [hto, hto', h.cursor]

theorem Abreast.motions (h : Abreast t start walked selected) {ms : List (String × String)}
    (hms : ∀ m ∈ ms, m ∈ Keymap.visualMotions) {ps : List Press}
    (hps : tokens ps = ms.flatMap fun m => Binding.sequenceOf m.1) :
    ∃ walked' selected', walked.pressAll ps = .ok walked' ∧ selected.pressAll ps = .ok selected' ∧
      Abreast t start walked' selected' := by
  refine motions_induction (C := fun ps => ∀ {walked selected}, Abreast t start walked selected →
    ∃ walked' selected', walked.pressAll ps = .ok walked' ∧ selected.pressAll ps = .ok selected' ∧
      Abreast t start walked' selected') ?_ ?_ hms hps h
  · exact fun h => ⟨_, _, rfl, rfl, h⟩
  · intro m hm first rest hfirst ih walked selected h
    obtain ⟨walked₁, selected₁, hwalk, hselect, h₁⟩ := h.motion hm hfirst
    obtain ⟨walked', selected', hwalk', hselect', h'⟩ := ih h₁
    exact ⟨walked', selected', (pressAll_append hwalk rest).trans hwalk',
      (pressAll_append hselect rest).trans hselect', h'⟩

/-- The key that copies the selection leaves the cursor at its earlier end. -/
theorem Spanning.press_yank (h : Spanning t start e) (hp : p.toKey.token = "y") :
    ∃ e' a before after, e.press p = (e', .ok a) ∧ e'.state.mode = .normal ∧
      e'.desk.area.text = t ∧ t = before ++ e'.state.unnamed ++ after ∧
      start.ordered e.desk.area.cursor
        = (Location.endOf before, Location.endOf (before ++ e'.state.unnamed)) ∧
      e'.desk.area.cursor = Location.endOf before ∧
      e'.desk.area.selection = ⟨Location.endOf before, Location.endOf before⟩ := by
  obtain ⟨hpoised, rfl, hanchor, hstart, hcursor, hselection⟩ := h
  obtain ⟨b, hf, hk, hb, htarget⟩ : ∃ b, Keymap.builtIn.find? .visual ["y"] = some b ∧
      b.kind = .edit ∧ b.action = "yank-selection" ∧ b.target? = some Mode.normal.name := by
    decide +kernel
  obtain ⟨e', a, hpress, hpoised', hregister, harea⟩ := hpoised.press_take
    (hpoised.completes rfl hp rfl rfl hf) hk htarget false hb
  obtain ⟨before, c, after, htext, hc, hends⟩ := Desk.selection_parts (d := e.desk)
    (by rw [hselection]; exact hstart) (by rw [hselection]; exact hcursor)
  rw [hselection] at hends
  rw [hc] at hregister
  subst hregister
  -- The earlier of the two ends is where the cursor goes.
  have hfirst : (start.ordered e.desk.area.cursor).1 = Location.endOf before := by rw [hends]
  have hwithin : (Location.endOf before).Within e.desk.area.lines := by
    rw [← hfirst]
    exact (Location.ordered_within hstart hcursor).1
  have hmoved : (e.desk.takeSelection false).area
      = e.desk.area.moveCursor (Location.endOf before) := by
    simp only [Desk.takeSelection, hselection, hends]
    rfl
  rw [hmoved] at harea
  refine ⟨e', a, before, after, hpress, hpoised'.mode, ?_, htext, hends, ?_, ?_⟩
  · rw [harea]
    rfl
  · rw [harea]
    exact TextArea.cursor_moveCursor hwithin false
  · rw [harea]
    exact TextArea.selection_moveCursor hwithin false

/-- Keys of motions lead from a cursor to the same place whether or not they are pressed after the key
that begins a selection. In between all from the one to the other is selected, and the text is as it
was. The key that copies then copies the text that stands between the two, and goes to the earlier. -/
theorem selection_follows_motions (e : Editor) (h : e.Waiting)
    (hc : e.desk.area.cursor.Within e.desk.area.lines) (ms : List (String × String))
    (hms : ∀ m ∈ ms, m ∈ Keymap.visualMotions) (ps : List Press)
    (hps : tokens ps = ms.flatMap fun m => Binding.sequenceOf m.1) (v y : Press)
    (hv : v.toKey.token = "v") (hy : y.toKey.token = "y") :
    ∃ walked selected yanked,
      e.pressAll ps = .ok walked ∧ e.pressAll (v :: ps) = .ok selected ∧
      e.pressAll (v :: ps ++ [y]) = .ok yanked ∧
      selected.desk.area.text = e.desk.area.text ∧
      selected.desk.area.cursor = walked.desk.area.cursor ∧
      selected.desk.area.selection = ⟨e.desk.area.cursor, walked.desk.area.cursor⟩ ∧
      yanked.state.mode = .normal ∧ yanked.desk.area.text = e.desk.area.text ∧
      ∃ before after, e.desk.area.text = before ++ yanked.state.unnamed ++ after ∧
        e.desk.area.cursor.ordered walked.desk.area.cursor
          = (Location.endOf before, Location.endOf (before ++ yanked.state.unnamed)) ∧
        yanked.desk.area.cursor = Location.endOf before ∧
        yanked.desk.area.selection = ⟨Location.endOf before, Location.endOf before⟩ := by
  have hwalking := h.walking hc
  obtain ⟨begun, a, hbegin, hspanning, hsame⟩ := hwalking.begin_selection hv
  have habreast : Abreast e.desk.area.text e.desk.area.cursor e begun := ⟨hwalking, hspanning, hsame⟩
  obtain ⟨walked, selected, hwalk, hselect, hend⟩ := habreast.motions hms hps
  obtain ⟨yanked, a', before, after, hyank, hmode, htext, hparts, hends, hcursor, hselection⟩ :=
    hend.spanning.press_yank hy
  have hselected : e.pressAll (v :: ps) = .ok selected := (pressAll_cons hbegin ps).trans hselect
  have hyanked : e.pressAll (v :: ps ++ [y]) = .ok yanked :=
    (pressAll_append hselected [y]).trans (pressAll_cons hyank [])
  refine ⟨walked, selected, yanked, hwalk, hselected, hyanked, hend.spanning.text, hend.cursor, ?_,
    hmode, htext, before, after, hparts, ?_, hcursor, hselection⟩
  · rw [← hend.cursor]
    exact hend.spanning.selection
  · rw [← hend.cursor]
    exact hends

/-- From the `b` the keys lead back to the start of the text, so that the copy is what stood before. -/
theorem selection_follows_to_start :
    onTwoRows.Waiting ∧ onTwoRows.desk.area.cursor.Within onTwoRows.desk.area.lines ∧
    ∃ walked yanked, onTwoRows.pressAll (typing ["j", "g", "g"]) = .ok walked ∧
      onTwoRows.pressAll (typing ["v", "j", "g", "g", "y"]) = .ok yanked ∧
      walked.desk.area.cursor = ⟨0, 0⟩ ∧ yanked.state.unnamed = ['a'] ∧
      yanked.desk.area.cursor = ⟨0, 0⟩ := by
  obtain ⟨walked, selected, yanked, hwalk, -, hyank, -, -, -, -, -, before, after, -, hends, hcursor, -⟩ :=
    selection_follows_motions onTwoRows waiting_onTwoRows within_onTwoRows
      [("j", "select-down"), ("gg", "select-buffer-home")] (by decide) (typing ["j", "g", "g"])
      (by decide +kernel) { key := "v", character := some "v" } { key := "y", character := some "y" }
      (by decide +kernel) (by decide +kernel)
  have hto : (onTwoRows.pressAll (typing ["j", "g", "g"])).toOption.map (fun e => e.desk.area.cursor)
      = some ⟨0, 0⟩ := by
    decide +kernel
  have hcopy : (onTwoRows.pressAll (typing ["v", "j", "g", "g", "y"])).toOption.map
      (fun e => e.state.unnamed) = some ['a'] := by
    decide +kernel
  rw [hwalk] at hto
  have hyank' : onTwoRows.pressAll (typing ["v", "j", "g", "g", "y"]) = .ok yanked := hyank
  rw [hyank'] at hcopy
  have hto : walked.desk.area.cursor = ⟨0, 0⟩ := Option.some.inj hto
  have hfirst : (onTwoRows.desk.area.cursor.ordered walked.desk.area.cursor).1
      = Location.endOf before := congrArg Prod.fst hends
  refine ⟨waiting_onTwoRows, within_onTwoRows, walked, yanked, hwalk, hyank', hto,
    Option.some.inj hcopy, ?_⟩
  rw [hcursor, ← hfirst, hto]
  decide

end ModalEditing.Editor
