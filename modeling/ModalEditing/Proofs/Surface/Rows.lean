import ModalEditing.Proofs.Surface.Removal
import ModalEditing.Proofs.TextArea.Lines

namespace ModalEditing

namespace TextArea
variable {a : TextArea} {x y : Location}

theorem lastRow_add_one (a : TextArea) : a.lastRow + 1 = a.lines.length :=
  Nat.sub_add_cancel (List.length_pos_iff.mpr (Text.lines_ne_nil a.text))

theorem within_row {row : ℕ} (h : row < a.lines.length) : Location.Within a.lines ⟨row, 0⟩ :=
  ⟨h, Nat.zero_le _⟩

theorem within_rowEnd {row : ℕ} (h : row < a.lines.length) :
    Location.Within a.lines ⟨row, (a.line row).length⟩ := ⟨h, Nat.le_refl _⟩

/-- Two locations part a text, and what is between them is deleted. -/
theorem exists_text_delete (hx : x.Within a.lines) (hy : y.Within a.lines) (h : y.before x = false) :
    ∃ p c u, a.text = p ++ c ++ u ∧ x = Location.endOf p ∧ y = Location.endOf (p ++ c) ∧
      (a.delete x y).text = p ++ u := by
  obtain ⟨p, c, u, ht, rfl, rfl⟩ := Location.exists_parts hx hy (hx.offsetIn_le hy h)
  exact ⟨p, c, u, ht, rfl, rfl, text_delete_parts ht⟩

/-- Deletion joins what the first row has before it with what the last row has behind it. -/
theorem lines_delete (hx : x.Within a.lines) (hy : y.Within a.lines) (h : y.before x = false) :
    (a.delete x y).lines = a.lines.take x.row
      ++ ((a.line x.row).take x.col ++ (a.line y.row).drop y.col) :: a.lines.drop (y.row + 1) := by
  obtain ⟨p, c, u, ht, hp, hc, htext⟩ := exists_text_delete hx hy h
  have hdelete : (a.delete x y).lines = Text.lines (p ++ u) := congrArg Text.lines htext
  have hleft := (Location.lines_parts p (c ++ u)).1
  have hright := (Location.lines_parts (p ++ c) u).2
  rw [← List.append_assoc, ← hp] at hleft
  rw [← hc] at hright
  rw [hdelete, Text.lines_append hleft hright, ← ht]
  rfl

/-- Of rows that are deleted from the start of the first to the end of the last an empty one is left. -/
theorem lines_delete_rows {first last : ℕ} (hle : first ≤ last) (hlast : last < a.lines.length) :
    (a.delete ⟨first, 0⟩ ⟨last, (a.line last).length⟩).lines
      = a.lines.take first ++ [[]] ++ a.lines.drop (last + 1) := by
  have hfirst : first < a.lines.length := Nat.lt_of_le_of_lt hle hlast
  have hdelete := lines_delete (within_row hfirst) (within_rowEnd hlast)
    (by simp [Location.before]; omega)
  rw [List.take_zero, List.drop_length, List.append_nil] at hdelete
  exact hdelete.trans (List.append_cons _ _ _)

theorem text_of_lines {ls : List Text} (h : a.lines = ls) : a.text = Text.joinLines ls := by
  rw [← h, lines, Text.joinLines_lines]

theorem line_eq_getElem {row : ℕ} (h : row < a.lines.length) : a.line row = a.lines[row] := by
  simp [line, h]

theorem line_cons_drop {row : ℕ} (h : row < a.lines.length) :
    a.line row :: a.lines.drop (row + 1) = a.lines.drop row := by
  rw [line_eq_getElem h]
  exact (List.drop_eq_getElem_cons h).symm

theorem take_concat_line {row : ℕ} (h : row < a.lines.length) :
    a.lines.take row ++ [a.line row] = a.lines.take (row + 1) := by
  rw [line_eq_getElem h]
  exact List.take_append_getElem h

end TextArea

namespace Desk
variable {d : Desk}

/-- Rows are removed with a newline beside them, so that no empty row is left in their place. -/
theorem text_deleteRows {first last : ℕ} (hle : first ≤ last) (hlast : last ≤ d.area.lastRow) :
    (d.deleteRows first last).area.text
      = Text.joinLines (d.area.lines.take first ++ d.area.lines.drop (last + 1)) := by
  have hrows := d.area.lastRow_add_one
  have hlast' : last < d.area.lines.length := by omega
  have hfirst' : first < d.area.lines.length := by omega
  unfold deleteRows
  simp only
  split
  · rename_i hlt
    have hnext : last + 1 < d.area.lines.length := by omega
    apply TextArea.text_of_lines (a := d.area.delete ⟨first, 0⟩ ⟨last + 1, 0⟩)
    rw [TextArea.lines_delete (TextArea.within_row hfirst') (TextArea.within_row hnext)
      (by simp [Location.before]; omega)]
    simp only [List.take_zero, List.nil_append, List.drop_zero]
    rw [TextArea.line_cons_drop hnext]
  · rename_i hge
    have hnone : d.area.lines.drop (last + 1) = [] := List.drop_eq_nil_of_le (by omega)
    split
    · rename_i hpos'
      have hprev : first - 1 < d.area.lines.length := by omega
      apply TextArea.text_of_lines
        (a := d.area.delete ⟨first - 1, (d.area.line (first - 1)).length⟩
          ⟨last, (d.area.line last).length⟩)
      rw [TextArea.lines_delete (TextArea.within_rowEnd hprev) (TextArea.within_rowEnd hlast')
        (by simp [Location.before]; omega)]
      simp only [List.take_length, List.drop_length, List.append_nil, hnone]
      rw [TextArea.take_concat_line hprev, Nat.sub_add_cancel hpos']
    · rename_i hzero
      obtain rfl : first = 0 := by omega
      have hlines : (d.area.delete ⟨0, 0⟩ ⟨last, (d.area.line last).length⟩).lines = [[]] := by
        rw [TextArea.lines_delete_rows hle hlast', hnone]
        rfl
      have htext := TextArea.text_of_lines hlines
      rw [hnone]
      exact htext

/-- The rows that a count takes in: all from the cursor's on if there are not so many. -/
theorem rows_eq (hrow : d.row < d.area.lines.length) {count : ℕ} (hcount : 0 < count) :
    d.row ≤ (d.rows count).1 ∧ (d.rows count).1 ≤ d.area.lastRow ∧
      d.area.lines.drop ((d.rows count).1 + 1) = d.area.lines.drop (d.row + count) ∧
      (d.rows count).2 = Text.joinLines ((d.area.lines.drop d.row).take count) ++ ['\n'] := by
  have hlast : (d.rows count).1 = min d.area.lastRow (d.row + count - 1) := rfl
  have hrows := d.area.lastRow_add_one
  -- A count past the last row takes in as many rows as there are.
  refine ⟨by omega, by omega, ?_, ?_⟩
  · by_cases hfew : d.row + count ≤ d.area.lines.length
    · have heq : (d.rows count).1 + 1 = d.row + count := by omega
      rw [heq]
    · rw [List.drop_eq_nil_of_le (by omega), List.drop_eq_nil_of_le (by omega)]
  · have htake : (d.area.lines.drop d.row).take (min d.area.lastRow (d.row + count - 1) + 1 - d.row)
        = (d.area.lines.drop d.row).take count := by
      by_cases hfew : d.row + count ≤ d.area.lines.length
      · have heq : min d.area.lastRow (d.row + count - 1) + 1 - d.row = count := by omega
        rw [heq]
      · have hlen : (d.area.lines.drop d.row).length = d.area.lines.length - d.row :=
          List.length_drop
        rw [List.take_of_length_le (by omega), List.take_of_length_le (by omega)]
    rw [rows, htake]

end Desk
end ModalEditing
