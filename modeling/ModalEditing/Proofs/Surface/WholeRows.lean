import ModalEditing.Proofs.Surface.PutBack
import ModalEditing.Proofs.Surface.Rows
import ModalEditing.Proofs.Surface.Following

namespace ModalEditing

/-- The selection of the rows between two, from the first to the second. -/
def wholeRows (ls : List Text) (a t : ℕ) : Selection :=
  if a ≤ t then ⟨⟨a, 0⟩, ⟨t, (ls.getD t []).length⟩⟩ else ⟨⟨a, (ls.getD a []).length⟩, ⟨t, 0⟩⟩

def rowsBetween (ls : List Text) (a t : ℕ) : List Text := (ls.take (max a t + 1)).drop (min a t)

section
variable {ls : List Text} {a t : ℕ}

theorem wholeRows_stop_row (ls : List Text) (a t : ℕ) : (wholeRows ls a t).stop.row = t := by
  unfold wholeRows
  split <;> rfl

theorem wholeRows_within (ha : a < ls.length) (ht : t < ls.length) :
    (wholeRows ls a t).start.Within ls ∧ (wholeRows ls a t).stop.Within ls := by
  unfold wholeRows
  split
  · exact ⟨⟨ha, Nat.zero_le _⟩, ⟨ht, Nat.le_refl _⟩⟩
  · exact ⟨⟨ha, Nat.le_refl _⟩, ⟨ht, Nat.zero_le _⟩⟩

/-- In reading order the selection goes from the start of its first row to the end of its last. -/
theorem wholeRows_ordered (ls : List Text) (a t : ℕ) :
    (wholeRows ls a t).start.ordered (wholeRows ls a t).stop
      = (⟨min a t, 0⟩, ⟨max a t, (ls.getD (max a t) []).length⟩) := by
  unfold wholeRows
  split
  · rename_i h
    rw [Nat.min_eq_left h, Nat.max_eq_right h, Location.ordered, if_neg]
    simp [Location.before]
    omega
  · rename_i h
    rw [Nat.min_eq_right (by omega), Nat.max_eq_left (by omega), Location.ordered, if_pos]
    simp [Location.before]
    omega

end

/-- What stands between the start of a row and the end of another is made of the rows from the one to
the other. -/
theorem Location.lines_between {p c u : Text} {r s : ℕ}
    (hp : endOf p = ⟨r, 0⟩)
    (hc : endOf (p ++ c) = ⟨s, ((Text.lines (p ++ c ++ u)).getD s []).length⟩) :
    Text.lines c = ((Text.lines (p ++ c ++ u)).take (s + 1)).drop r := by
  have hs : s < (Text.lines (p ++ c ++ u)).length := by
    have hwithin := (endOf_within (p ++ c) u).1.row
    rwa [hc] at hwithin
  have hr : r < (Text.lines (p ++ c)).length := by
    have hwithin := (endOf_within p c).1.row
    rwa [hp] at hwithin
  -- Behind the end of a row nothing more belongs to it, and before the start of one nothing yet.
  have hto : Text.lines (p ++ c) = (Text.lines (p ++ c ++ u)).take (s + 1) := by
    have hparts := (lines_parts (p ++ c) u).1
    rw [hc] at hparts
    rw [hparts, List.take_length, ← List.take_append_getElem hs, List.getD_eq_getElem?_getD,
      List.getElem?_eq_getElem hs, Option.getD_some]
  have hfrom : Text.lines c = (Text.lines (p ++ c)).drop r := by
    have hparts := (lines_parts p c).2
    rw [hp] at hparts
    rw [hparts, List.drop_zero, List.drop_eq_getElem_cons hr]
    simp [hr]
  rw [hfrom, hto]

namespace Desk
variable {d : Desk} {row : ℕ} {l : Location}

/-- In visual line mode all rows from the anchor's to a location's are selected. -/
theorem selectTo_rows (hmode : d.state.mode = .visualLine) (hanchor : d.anchor = some ⟨row, 0⟩)
    (hrow : row < d.area.lines.length) :
    d.selectTo l = ((d.move (wholeRows d.area.lines row l.row).start).move
      (wholeRows d.area.lines row l.row).stop true, none) := by
  have hbefore : l.before ⟨row, 0⟩ = decide (l.row < row) := by simp [Location.before]
  simp only [selectTo, hmode, hanchor, Option.getD_some, hbefore, wholeRows]
  by_cases h : row ≤ l.row
  · simp [h, TextArea.line]
  · simp [h, hrow]

/-- The text of a selection of whole lines is made of its rows. -/
theorem selectedText_rows {t : ℕ} (hrow : row < d.area.lines.length) (ht : t < d.area.lines.length)
    (hsel : d.area.selection = wholeRows d.area.lines row t) :
    d.area.selectedText = Text.joinLines (rowsBetween d.area.lines row t) := by
  obtain ⟨hstart, hstop⟩ := wholeRows_within hrow ht
  rw [← hsel] at hstart hstop
  obtain ⟨p, c, u, htext, hc, hends⟩ := selection_parts hstart hstop
  rw [hsel, wholeRows_ordered] at hends
  obtain ⟨hp, hpc⟩ := Prod.mk.inj hends
  have hlines : Text.lines (p ++ c ++ u) = d.area.lines := congrArg Text.lines htext.symm
  have hrows := Location.lines_between (u := u) hp.symm (by rw [hlines]; exact hpc.symm)
  rw [hc, ← Text.joinLines_lines c, hrows, hlines]
  rfl

end Desk

namespace Editor
variable {e : Editor} {t : Text} {row last : ℕ} {p : Press}

/-- An editor that selects whole lines of this text from a row on. -/
structure Covering (t : Text) (row : ℕ) (e : Editor) : Prop where
  poised : e.Poised .visualLine ""
  text : e.desk.area.text = t
  anchor : e.desk.anchor = some ⟨row, 0⟩
  row_lt : row < (Text.lines t).length
  cursor : e.desk.area.cursor.row < (Text.lines t).length
  selection : e.desk.area.selection = wholeRows (Text.lines t) row e.desk.area.cursor.row
  stop : e.desk.area.cursor = e.desk.area.selection.stop

theorem Covering.of_area {area : TextArea} {readOnly : Bool} (hpoised : e.Poised .visualLine "")
    (hanchor : e.desk.anchor = some ⟨row, 0⟩) (hrow : row < area.lines.length)
    (hlast : last < area.lines.length)
    (harea : e.desk.area = { (area.moveCursor (wholeRows area.lines row last).start).moveCursor
      (wholeRows area.lines row last).stop true with readOnly := readOnly }) :
    Covering area.text row e ∧ e.desk.area.cursor.row = last := by
  obtain ⟨hstart, hstop⟩ := wholeRows_within hrow hlast
  have hcursor : e.desk.area.cursor = (wholeRows area.lines row last).stop := by
    rw [harea]
    exact TextArea.cursor_moveCursor (a := area.moveCursor _) hstop true
  have hselection : e.desk.area.selection = wholeRows area.lines row last := by
    rw [harea]
    exact TextArea.selection_select hstart hstop
  have hto : e.desk.area.cursor.row = last := by rw [hcursor, wholeRows_stop_row]
  refine ⟨⟨hpoised, ?_, hanchor, hrow, ?_, ?_, ?_⟩, hto⟩
  · rw [harea]
    rfl
  · rw [hto]
    exact hlast
  · rw [hto]
    exact hselection
  · rw [hcursor, hselection]

theorem Covering.within (h : Covering t row e) : e.desk.area.cursor.Within (Text.lines t) := by
  rw [h.stop, h.selection]
  exact (wholeRows_within h.row_lt h.cursor).2

/-- The key that begins a selection of whole lines selects the cursor's row. -/
theorem Walking.begin_rows (h : Walking t e) (hp : p.toKey.token = "V") :
    ∃ e' a, e.press p = (e', .ok a) ∧ Covering t e.desk.area.cursor.row e' ∧
      e'.desk.area.cursor.row = e.desk.area.cursor.row := by
  obtain ⟨hpoised, rfl, hcursor⟩ := h
  obtain ⟨b, hf, hk, hb, htarget⟩ : ∃ b, Keymap.builtIn.find? .normal ["V"] = some b ∧
      b.kind = .modeChange ∧ b.action = "visual-line" ∧
      b.target? = some Mode.visualLine.name := by
    decide +kernel
  obtain ⟨e', a, hpress, hpoised', hanchor, harea⟩ := hpoised.press_entry
    (hpoised.completes rfl hp rfl rfl hf) hk htarget .visualLine (by rw [hb]; rfl)
    ((e.desk.area.moveCursor
      (wholeRows e.desk.area.lines e.desk.area.cursor.row e.desk.area.cursor.row).start).moveCursor
      (wholeRows e.desk.area.lines e.desk.area.cursor.row e.desk.area.cursor.row).stop true)
    (some ⟨e.desk.area.cursor.row, 0⟩)
    fun d hd hmode => by
      have hrow : d.row < d.area.lines.length := by
        rw [Desk.row, hd]
        exact hcursor.row
      refine (Desk.selectTo_rows (d := { d with anchor := some ⟨d.row, 0⟩ }) hmode rfl hrow).trans ?_
      simp only [Desk.move, Desk.row, hd]
  obtain ⟨hcovering, hrow⟩ := Covering.of_area hpoised' hanchor hcursor.row hcursor.row harea
  exact ⟨e', a, hpress, hcovering, hrow⟩

/-- A motion takes the selection to the row that it leads to, and all rows up to there are selected. -/
theorem Covering.motion (h : Covering t row e) {b : Binding}
    (hmem : b ∈ Keymap.builtIn.bucket .visual) {m : Motion} (hb : b.Moves true m) {ps : List Press}
    (hps : tokens ps = b.sequence) :
    ∃ e', e.pressAll ps = .ok e' ∧ Covering t row e' ∧
      e'.desk.area.cursor.row = (m.target (Text.lines t) e.desk.area.cursor 1).row := by
  have hwithin := h.within
  obtain ⟨hpoised, rfl, hanchor, hrow, -, -, -⟩ := h
  have hl : (m.target e.desk.area.lines e.desk.area.cursor 1).Within e.desk.area.lines :=
    m.target_within hwithin 1
  generalize hto : m.target e.desk.area.lines e.desk.area.cursor 1 = l at hl
  obtain ⟨e', hall, hpoised', hanchor', harea⟩ := hpoised.motion rfl hmem hb hps
    ((e.desk.area.moveCursor (wholeRows e.desk.area.lines row l.row).start).moveCursor
      (wholeRows e.desk.area.lines row l.row).stop true)
    fun d hd hn hmode => by
      rw [Desk.applyMotion_select hb.action, hd, hto,
        Desk.selectTo_rows hmode (hn.trans hanchor) (by rw [hd]; exact hrow)]
      simp only [Desk.move, hd]
  obtain ⟨hcovering, hlast⟩ :=
    Covering.of_area hpoised' (hanchor'.trans hanchor) hrow hl.row harea
  exact ⟨e', hall, hcovering, hlast.trans (congrArg Location.row hto).symm⟩

theorem Covering.motions (h : Covering t row e) {ms : List (String × String)}
    (hms : ∀ m ∈ ms, m ∈ Keymap.visualMotions) {ps : List Press}
    (hps : tokens ps = ms.flatMap fun m => Binding.sequenceOf m.1) :
    ∃ e', e.pressAll ps = .ok e' ∧ Covering t row e' := by
  refine motions_induction (C := fun ps => ∀ {e}, Covering t row e →
    ∃ e', e.pressAll ps = .ok e' ∧ Covering t row e') ?_ ?_ hms hps h
  · exact fun h => ⟨_, rfl, h⟩
  · intro m hm first rest hfirst ih e h
    obtain ⟨motion, -, b, hb, hbs, hbm⟩ := Keymap.exists_motion hm
    obtain ⟨e₁, hpress, hcovering, -⟩ := h.motion hb hbm (hfirst.trans hbs.symm)
    obtain ⟨e', hpress', hcovering'⟩ := ih hcovering
    exact ⟨e', (pressAll_append hpress rest).trans hpress', hcovering'⟩

/-- The keys that take the selection take its rows into the register. -/
theorem Covering.press_take (h : Covering t row e) (remove : Bool)
    (hp : p.toKey.token = if remove then "d" else "y") :
    ∃ e' a, e.press p = (e', .ok a) ∧ e'.Poised .normal "" ∧
      e'.state.unnamed = Text.joinLines (rowsBetween (Text.lines t) row e.desk.area.cursor.row) ∧
      e'.desk.area = { (e.desk.takeSelection remove).area with readOnly := true } := by
  obtain ⟨hpoised, rfl, -, hrow, hlast, hselection, -⟩ := h
  have hfind : ∃ b, Keymap.builtIn.find? .visual [if remove then "d" else "y"] = some b ∧
      b.kind = .edit ∧ b.target? = some Mode.normal.name ∧
      b.action = if remove then "delete-selection" else "yank-selection" := by
    cases remove <;> decide +kernel
  obtain ⟨b, hf, hk, htarget, hb⟩ := hfind
  have hc : e.state.Completes e.table p.toKey .visual b :=
    hpoised.completes rfl hp (by cases remove <;> rfl) (by cases remove <;> rfl) hf
  obtain ⟨e', a, hpress, hpoised', hregister, harea⟩ := hpoised.press_take hc hk htarget remove hb
  refine ⟨e', a, hpress, hpoised', ?_, harea⟩
  rw [hregister]
  exact Desk.selectedText_rows hrow hlast hselection

/-- From the key that begins a selection of whole lines on, after each motion all rows from the first
to the cursor's are selected, with the cursor at the end of the selection, and the text is as it was.
The key that copies then copies just these rows. -/
theorem selection_covers_rows (e : Editor) (h : e.Waiting)
    (hc : e.desk.area.cursor.Within e.desk.area.lines) (ms : List (String × String))
    (hms : ∀ m ∈ ms, m ∈ Keymap.visualMotions) (ps : List Press)
    (hps : tokens ps = ms.flatMap fun m => Binding.sequenceOf m.1) (v y : Press)
    (hv : v.toKey.token = "V") (hy : y.toKey.token = "y") :
    ∃ selected yanked,
      e.pressAll (v :: ps) = .ok selected ∧ e.pressAll (v :: ps ++ [y]) = .ok yanked ∧
      let first := e.desk.area.cursor.row
      let last := selected.desk.area.cursor.row
      last < e.desk.area.lines.length ∧
      selected.desk.area.text = e.desk.area.text ∧
      selected.desk.area.selection = wholeRows e.desk.area.lines first last ∧
      selected.desk.area.cursor = selected.desk.area.selection.stop ∧
      yanked.desk.area.text = e.desk.area.text ∧
      yanked.state.unnamed = Text.joinLines (rowsBetween e.desk.area.lines first last) := by
  obtain ⟨begun, a, hbegin, hcovering, -⟩ := (h.walking hc).begin_rows hv
  obtain ⟨selected, hselect, hcovering'⟩ := hcovering.motions hms hps
  obtain ⟨yanked, a', hyank, -, hregister, harea⟩ := hcovering'.press_take false hy
  have hselected : e.pressAll (v :: ps) = .ok selected := (pressAll_cons hbegin ps).trans hselect
  have hyanked : e.pressAll (v :: ps ++ [y]) = .ok yanked :=
    (pressAll_append hselected [y]).trans (pressAll_cons hyank [])
  refine ⟨selected, yanked, hselected, hyanked, hcovering'.cursor, hcovering'.text,
    hcovering'.selection, hcovering'.stop, ?_, hregister⟩
  rw [harea]
  exact hcovering'.text

/-- The motions go down from the first row and then back up to it. -/
theorem rows_covered_down_and_up :
    onTwoRows.Waiting ∧ onTwoRows.desk.area.cursor.Within onTwoRows.desk.area.lines ∧
    ∃ selected yanked, onTwoRows.pressAll (typing ["V", "j", "k"]) = .ok selected ∧
      onTwoRows.pressAll (typing ["V", "j", "k", "y"]) = .ok yanked ∧
      selected.desk.area.selection = ⟨⟨0, 0⟩, ⟨0, 2⟩⟩ ∧ yanked.state.unnamed = ['a', 'b'] := by
  obtain ⟨selected, yanked, hselect, hyank, -, -, hselection, -, -, hregister⟩ :=
    selection_covers_rows onTwoRows waiting_onTwoRows within_onTwoRows
      [("j", "select-down"), ("k", "select-up")] (by decide) (typing ["j", "k"])
      (by decide +kernel) { key := "V", character := some "V" } { key := "y", character := some "y" }
      (by decide +kernel) (by decide +kernel)
  have hrow : (onTwoRows.pressAll (typing ["V", "j", "k"])).toOption.map
      (fun e => e.desk.area.cursor.row) = some 0 := by
    decide +kernel
  have hselect' : onTwoRows.pressAll (typing ["V", "j", "k"]) = .ok selected := hselect
  rw [hselect'] at hrow
  have hrow : selected.desk.area.cursor.row = 0 := Option.some.inj hrow
  rw [hrow] at hselection hregister
  exact ⟨waiting_onTwoRows, within_onTwoRows, selected, yanked, hselect', hyank, hselection, hregister⟩

end Editor
end ModalEditing
