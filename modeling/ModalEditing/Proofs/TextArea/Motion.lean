import ModalEditing.Motion
import ModalEditing.Proofs.TextArea.Location

namespace ModalEditing.Motion
variable {ls : List Text} {l : Location}

theorem run_le_length (blank : Bool) (t : Text) : run blank t ≤ t.length :=
  (List.takeWhile_sublist _).length_le

/-- What a run passes over from a column on ends in the line. -/
theorem add_run_le {line : Text} {col : Nat} (h : col ≤ line.length) (blank : Bool) :
    col + run blank (line.drop col) ≤ line.length := by
  have hrun := run_le_length blank (line.drop col)
  rw [List.length_drop] at hrun
  omega

/-- What a step preserves, any number of steps preserves. -/
theorem iterate_induction {α : Type} [DecidableEq α] {f : α → α} {P : α → Prop}
    (hstep : ∀ a, P a → P (f a)) (n : Nat) {a : α} (h : P a) : P (iterate f n a) := by
  induction n generalizing a with
  | zero => exact h
  | succ n ih =>
    rw [iterate]
    split
    · exact h
    · exact ih (hstep a h)

theorem within_stepForward (h : l.Within ls) : (stepForward ls l).Within ls := by
  have hword := add_run_le h.col false
  have hcol := add_run_le hword true
  unfold stepForward
  simp only
  split
  · rename_i hnext
    have hrow : l.row + 1 < ls.length := by simp_all
    exact ⟨hrow, Text.indent_le_length _⟩
  · exact ⟨h.row, hcol⟩

/-- The start of a word is not behind the column that it is sought from. -/
theorem length_dropWord_le (line : Text) (col : Nat) :
    (((line.take col).reverse.dropWhile Text.isBlank).dropWhile fun c => !Text.isBlank c).length
      ≤ line.length := by
  have hword := (List.dropWhile_sublist (l := (line.take col).reverse.dropWhile Text.isBlank)
    fun c => !Text.isBlank c).length_le
  have hblank := (List.dropWhile_sublist (l := (line.take col).reverse) Text.isBlank).length_le
  rw [List.length_reverse, List.length_take] at hblank
  omega

theorem within_stepBackward (h : l.Within ls) : (stepBackward ls l).Within ls := by
  unfold stepBackward
  split
  · rename_i hstart
    have hrow : l.row - 1 < ls.length := by
      have := h.row
      omega
    exact ⟨hrow, length_dropWord_le _ _⟩
  · exact ⟨h.row, length_dropWord_le _ _⟩

theorem drop_eq_cons {row : Nat} {line : Text} {later : List Text} (h : line :: later = ls.drop row) :
    row < ls.length ∧ line = lineOf ls row ∧ later = ls.drop (row + 1) := by
  have hrow : row < ls.length := by
    have hlen := congrArg List.length h
    rw [List.length_cons, List.length_drop] at hlen
    omega
  rw [List.drop_eq_getElem_cons hrow] at h
  obtain ⟨hline, hlater⟩ := List.cons.inj h
  exact ⟨hrow, by simp [lineOf, hrow, hline], hlater⟩

/-- The search goes on to later lines, and its last line is the last of the text. -/
theorem within_seekWord {row col : Nat} {later : List Text} (hrow : row < ls.length)
    (hlater : later = ls.drop (row + 1)) :
    (seekWord row col (lineOf ls row) later).Within ls := by
  induction later generalizing row col with
  | nil =>
    rw [seekWord]
    split
    · rename_i hfound
      exact ⟨hrow, Nat.le_of_lt hfound⟩
    · exact ⟨hrow, Nat.le_refl _⟩
  | cons next later ih =>
    rw [seekWord]
    split
    · rename_i hfound
      exact ⟨hrow, Nat.le_of_lt hfound⟩
    · obtain ⟨hnext, hline, hrest⟩ := drop_eq_cons hlater
      rw [hline]
      exact ih hnext hrest

theorem within_stepWordEnd (h : l.Within ls) : (stepWordEnd ls l).Within ls := by
  have hseek : (seekWord l.row (l.col + 1) (lineOf ls l.row) (ls.drop (l.row + 1))).Within ls :=
    within_seekWord h.row rfl
  unfold stepWordEnd
  simp only
  split
  · exact hseek
  · rename_i hin
    refine ⟨hseek.row, ?_⟩
    -- The character found is not passed over, but the rest of its word is.
    have hrun := add_run_le (Nat.lt_of_not_le hin) false
    exact Nat.le_trans (Nat.add_le_add_right (Nat.le_succ _) _) hrun

theorem target_within (m : Motion) (h : l.Within ls) (count : Nat) :
    (m.target ls l count).Within ls := by
  have hpos : 0 < ls.length := Nat.lt_of_le_of_lt (Nat.zero_le _) h.row
  have hrow (row : Nat) : min (ls.length - 1) row < ls.length := by omega
  cases m with
  | left => exact ⟨h.row, Nat.le_trans (Nat.sub_le _ _) h.col⟩
  | right => exact ⟨h.row, Nat.min_le_left _ _⟩
  | down => exact ⟨hrow _, Nat.min_le_right _ _⟩
  | up => exact ⟨hrow _, Nat.min_le_right _ _⟩
  | wordForward => exact iterate_induction (fun _ => within_stepForward) count h
  | wordBackward => exact iterate_induction (fun _ => within_stepBackward) count h
  | wordEnd =>
    have hend := iterate_induction (fun _ => within_stepWordEnd) count h
    exact ⟨hend.row, Nat.le_trans (Nat.min_le_left _ _) hend.col⟩
  | lineHome => exact ⟨h.row, Nat.zero_le _⟩
  | lineEnd => exact ⟨h.row, Nat.le_refl _⟩
  | textHome => exact ⟨h.row, Text.indent_le_length _⟩
  | bufferHome => exact ⟨hpos, Nat.zero_le _⟩
  | bufferEnd => exact ⟨Nat.sub_lt hpos Nat.one_pos, Nat.zero_le _⟩

end ModalEditing.Motion
