import ModalEditing.Proofs.Surface.Taking

namespace ModalEditing

namespace Text

/-- A line's text begins at its first character that is no blank, or at its end. -/
theorem indent_eq_findIdx (t : Text) : indent t = t.findIdx fun c => !isBlank c := by
  induction t with
  | nil => rfl
  | cons c t ih =>
    rw [indent] at ih
    cases hc : isBlank c <;> simp [indent, List.findIdx_cons, hc, ih]

end Text

namespace TextArea
variable {a : TextArea}

theorem newline_not_mem_line {l : Text} (h : l ∈ a.lines) : '\n' ∉ l :=
  Text.newline_not_mem_of_mem_lines h

/-- Lines that are all taken from a text are the lines of the text that they make, if they are any. -/
theorem lines_of_text {ls : List Text} {b : TextArea} (hsub : ∀ l ∈ ls, l ∈ a.lines)
    (h : b.text = Text.joinLines ls) : b.lines = if ls = [] then [[]] else ls := by
  rw [lines, h]
  split_ifs with hnil
  · rw [hnil]
    rfl
  · exact Text.lines_joinLines hnil fun l hl => newline_not_mem_line (hsub l hl)

end TextArea

namespace Desk
variable {d : Desk}

/-- The cursor goes to where a row's text begins. -/
theorem cursor_move_indent {row : ℕ} (h : row < d.area.lines.length) :
    (d.move ⟨row, Text.indent (d.area.line row)⟩).area.cursor
      = ⟨row, Text.indent (d.area.line row)⟩ :=
  Location.Within.clampTo_eq ⟨h, Text.indent_le_length _⟩

theorem lines_deleteRows {first last : ℕ} (hle : first ≤ last) (hlast : last ≤ d.area.lastRow) :
    (d.deleteRows first last).area.lines =
      if d.area.lines.take first ++ d.area.lines.drop (last + 1) = [] then [[]]
      else d.area.lines.take first ++ d.area.lines.drop (last + 1) := by
  refine TextArea.lines_of_text (a := d.area) ?_ (text_deleteRows hle hlast)
  intro l hl
  rcases List.mem_append.mp hl with hl | hl
  · exact List.mem_of_mem_take hl
  · exact List.mem_of_mem_drop hl

theorem lastRow_deleteRows {first last : ℕ} (hle : first ≤ last) (hlast : last ≤ d.area.lastRow) :
    (d.deleteRows first last).area.lastRow = first + (d.area.lastRow - last) - 1 := by
  have hrows := d.area.lastRow_add_one
  have hkept : (d.area.lines.take first ++ d.area.lines.drop (last + 1)).length
      = first + (d.area.lastRow - last) := by
    rw [List.length_append, List.length_take, List.length_drop]
    omega
  rw [TextArea.lastRow, lines_deleteRows hle hlast, ← hkept]
  split_ifs with hnil
  · rw [hnil]
    rfl
  · rfl

/-- The cursor goes to the row that has taken the place of those removed, or to the last row if none
has, and there to where its text begins. -/
theorem cursor_deleteRows {first last : ℕ} (hle : first ≤ last) (hlast : last ≤ d.area.lastRow) :
    let now := d.deleteRows first last
    now.area.cursor = ⟨min first now.area.lastRow,
      Text.indent (now.area.line (min first now.area.lastRow))⟩ := by
  intro now
  have hlastRow : now.area.lastRow = first + (d.area.lastRow - last) - 1 :=
    lastRow_deleteRows hle hlast
  have hrow : min first now.area.lastRow < now.area.lines.length := by
    have hrows := now.area.lastRow_add_one
    omega
  by_cases hlt : last < d.area.lastRow
  · have hmin : min first now.area.lastRow = first := by omega
    let left := d.delete ⟨first, 0⟩ ⟨last + 1, 0⟩
    have hnow : now = left.move ⟨first, Text.indent (left.area.line first)⟩ := by
      simp only [now, left, deleteRows, if_pos hlt]
    rw [hmin] at hrow ⊢
    rw [hnow] at hrow ⊢
    exact cursor_move_indent hrow
  · by_cases hfirst : 0 < first
    · have hmin : min first now.area.lastRow = first - 1 := by omega
      let left := d.delete ⟨first - 1, (d.area.line (first - 1)).length⟩
        ⟨last, (d.area.line last).length⟩
      have hnow : now = left.move ⟨first - 1, Text.indent (left.area.line (first - 1))⟩ := by
        simp only [now, left, deleteRows, if_neg hlt, if_pos hfirst]
      rw [hmin] at hrow ⊢
      rw [hnow] at hrow ⊢
      exact cursor_move_indent hrow
    · -- No row is left, and an empty one is in their place.
      have hlines : now.area.lines = [[]] := by
        have hkept : d.area.lines.take first ++ d.area.lines.drop (last + 1) = [] := by
          have hrows := d.area.lastRow_add_one
          rw [Nat.eq_zero_of_not_pos hfirst, List.take_zero, List.nil_append]
          exact List.drop_eq_nil_of_le (by omega)
        exact (lines_deleteRows hle hlast).trans (if_pos hkept)
      have hnow : now = (d.delete ⟨0, 0⟩ ⟨last, (d.area.line last).length⟩).move ⟨0, 0⟩ := by
        simp only [now, deleteRows, if_neg hlt, if_neg hfirst]
      have hmin : min first now.area.lastRow = 0 := by omega
      have hcursor : now.area.cursor = clampTo now.area.lines ⟨0, 0⟩ := by
        rw [hnow]
        rfl
      rw [hmin, hcursor, TextArea.line, hlines]
      rfl

/-- An edit that is not refused leaves what carrying it out leaves, and a text area that takes typing in
insert mode alone. -/
theorem apply_isEdit {a : Action} {name : String} {e : EditName} (ha : a.IsEdit name)
    (he : EditName.names.lookup name = some e) (hr : d.refusal? a.count e = none) :
    (d.apply a).2 = none ∧ (d.apply a).1.area.text = ((d.begun a).edit a.count e).area.text ∧
      (d.apply a).1.area.cursor = ((d.begun a).edit a.count e).area.cursor ∧
      (d.apply a).1.state = ((d.begun a).edit a.count e).state := by
  obtain ⟨hk, hn⟩ := ha
  obtain ⟨os, happly⟩ := apply_edit (d := d) hk (by rw [hn]; exact he) hr
  rw [happly]
  exact ⟨rfl, rfl, rfl, rfl⟩

/-- A change leaves one empty row in place of the rows, and goes there. -/
theorem change_rows {first last : ℕ} (hle : first ≤ last) (hlast : last < d.area.lines.length) :
    let now := (d.delete ⟨first, 0⟩ ⟨last, (d.area.line last).length⟩).move ⟨first, 0⟩
    now.area.lines = d.area.lines.take first ++ [[]] ++ d.area.lines.drop (last + 1) ∧
      now.area.cursor = ⟨first, 0⟩ := by
  intro now
  have hlines : now.area.lines
      = d.area.lines.take first ++ [[]] ++ d.area.lines.drop (last + 1) :=
    TextArea.lines_delete_rows hle hlast
  refine ⟨hlines, ?_⟩
  have hrow : first < now.area.lines.length := by
    rw [hlines, List.length_append, List.length_append, List.length_take, List.length_singleton]
    omega
  exact (TextArea.within_row hrow).clampTo_eq

/-- In the list of its lines, an edit of whole rows takes out those from the cursor's to the last that
the count takes in: a deletion drops them, and goes to where the row that comes next begins, or else the
last one; a change leaves one empty row for them, and goes there; a copy leaves them. The rows, each with
its newline, are in the unnamed register. -/
theorem lines_after_edit (d : Desk) (hc : d.area.cursor.Within d.area.lines) (a : Action) :
    let ls := d.area.lines
    let row := d.area.cursor.row
    let last := min (ls.length - 1) (row + a.count - 1)
    let now := d.apply a
    let area := now.1.area
    (a.IsEdit "delete-line" →
      area.lines = (if ls.take row ++ ls.drop (last + 1) = [] then [[]]
        else ls.take row ++ ls.drop (last + 1)) ∧
      area.cursor.row = min row (area.lines.length - 1) ∧
      area.cursor.col = (area.line area.cursor.row).findIdx fun c => !Text.isBlank c) ∧
    (a.IsEdit "change-line" →
      area.lines = ls.take row ++ [[]] ++ ls.drop (last + 1) ∧ area.cursor = ⟨row, 0⟩) ∧
    (a.IsEdit "yank-line" → area.text = d.area.text ∧ area.cursor = d.area.cursor) ∧
    (a.IsEdit "delete-line" ∨ a.IsEdit "change-line" ∨ a.IsEdit "yank-line" →
      now.2 = none ∧
        now.1.state.unnamed = Text.joinLines ((ls.take (last + 1)).drop row) ++ ['\n']) := by
  intro ls row last now area
  have hcount := a.count_pos
  have hrow : row < ls.length := hc.row
  have hfirst : row ≤ last := by omega
  have hlast : last ≤ d.area.lastRow := Nat.min_le_left _ _
  -- What the edit leaves does not depend on what it lets known.
  let taking := (d.begun a).yank (d.rows a.count).2
  refine ⟨?_, ?_, ?_, ?_⟩
  · intro ha
    obtain ⟨-, htext, hcursor, -⟩ := apply_isEdit (d := d) (e := .deleteLine) ha rfl rfl
    have hlines : area.lines = (taking.deleteRows row last).area.lines := congrArg Text.lines htext
    have hleft : area.cursor = ⟨min row (area.lines.length - 1),
        Text.indent (area.lines.getD (min row (area.lines.length - 1)) [])⟩ := by
      rw [hlines]
      exact hcursor.trans (cursor_deleteRows (d := taking) hfirst hlast)
    refine ⟨hlines.trans (lines_deleteRows (d := taking) hfirst hlast), ?_, ?_⟩
    · rw [hleft]
    · rw [← Text.indent_eq_findIdx, hleft]
      rfl
  · intro ha
    obtain ⟨-, htext, hcursor, -⟩ := apply_isEdit (d := d) (e := .changeLine) ha rfl rfl
    have hlast' : last < ls.length := by omega
    obtain ⟨hlines, hleft⟩ := change_rows (d := taking) hfirst hlast'
    exact ⟨(congrArg Text.lines htext).trans hlines, hcursor.trans hleft⟩
  · intro ha
    obtain ⟨-, htext, hcursor, -⟩ := apply_isEdit (d := d) (e := .yankLine) ha rfl rfl
    exact ⟨htext, hcursor⟩
  · have register {name : String} {e : EditName} (ha : a.IsEdit name)
        (hn : EditName.names.lookup name = some e) (he : e.extent? = some .rows)
        (hr : d.refusal? a.count e = none) :
        now.2 = none ∧
          now.1.state.unnamed = Text.joinLines ((ls.take (last + 1)).drop row) ++ ['\n'] := by
      obtain ⟨hnone, -, -, hstate⟩ := apply_isEdit ha hn hr
      refine ⟨hnone, ?_⟩
      rw [hstate, unnamed_edit_rows he, List.drop_take]
      rfl
    rintro (ha | ha | ha)
    · exact register ha (e := .deleteLine) rfl rfl rfl
    · exact register ha (e := .changeLine) rfl rfl rfl
    · exact register ha (e := .yankLine) rfl rfl rfl

def onThreeRows : Desk :=
  { state := {}, area := { text := ['a', '\n', '\n', ' ', 'b'], cursor := ⟨1, 0⟩ } }

/-- Of nine rows to delete there are two, and the cursor goes back to the one that is left; one row is
changed. -/
theorem lines_after_edits_on_three_rows :
    let deleted := onThreeRows.apply { kind := .edit, name := some "delete-line", count := 9 }
    let changed := onThreeRows.apply { kind := .edit, name := some "change-line" }
    onThreeRows.area.cursor.Within onThreeRows.area.lines ∧
    deleted.2 = none ∧ deleted.1.area.lines = [['a']] ∧ deleted.1.area.cursor.row = 0 ∧
    deleted.1.state.unnamed = ['\n', ' ', 'b', '\n'] ∧
    changed.1.area.lines = [['a'], [], [' ', 'b']] ∧ changed.1.area.cursor = ⟨1, 0⟩ := by
  intro deleted changed
  have hc : onThreeRows.area.cursor.Within onThreeRows.area.lines := ⟨by decide, by decide⟩
  obtain ⟨hdelete, -, -, hregister⟩ := lines_after_edit onThreeRows hc
    { kind := .edit, name := some "delete-line", count := 9 }
  obtain ⟨hlines, hrow, -⟩ := hdelete ⟨rfl, rfl⟩
  obtain ⟨hnone, htaken⟩ := hregister (.inl ⟨rfl, rfl⟩)
  obtain ⟨-, hchange, -, -⟩ := lines_after_edit onThreeRows hc
    { kind := .edit, name := some "change-line" }
  have hleft : deleted.1.area.lines = [['a']] := hlines.trans (by decide)
  have hfirst : deleted.1.area.cursor.row = min 1 (deleted.1.area.lines.length - 1) := hrow
  rw [hleft] at hfirst
  exact ⟨hc, hnone, hleft, hfirst, htaken, hchange ⟨rfl, rfl⟩⟩

end Desk
end ModalEditing
