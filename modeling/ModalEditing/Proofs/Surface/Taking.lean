import ModalEditing.Proofs.Surface.Asking
import ModalEditing.Proofs.Surface.Rows

namespace ModalEditing

/-- What an edit takes: characters of the cursor's row, whole rows, or the selection. -/
inductive Extent
  | characters
  | rows
  | selection
deriving DecidableEq

def EditName.extent? : EditName → Option Extent
  | .deleteChar | .deleteToLineEnd | .changeToLineEnd => some .characters
  | .deleteLine | .yankLine | .changeLine => some .rows
  | .deleteSelection | .changeSelection | .yankSelection => some .selection
  | .pasteAfter | .pasteBefore | .undo | .redo => none

namespace TextArea

/-- The rows from the cursor's on, as many as a count takes in. -/
def affected (a : TextArea) (count : ℕ) : List Text := (a.lines.drop a.cursor.row).take count

theorem take_affected_drop (a : TextArea) (count : ℕ) : a.lines.take a.cursor.row ++ a.affected count
    ++ a.lines.drop (a.cursor.row + count) = a.lines := by
  rw [affected, List.append_assoc, ← List.drop_drop, List.take_append_drop, List.take_append_drop]

/-- What an edit of whole rows has instead of them. -/
def instead (rows : List Text) : EditName → List Text
  | .deleteLine => []
  | .changeLine => [[]]
  | _ => rows

/-- An edit takes a piece from a text, and leaves another text. -/
inductive Takes (a : TextArea) (count : ℕ) (left : Text) : EditName → Text → Prop
  | characters {e : EditName} {p c u : Text} (he : e.extent? = some .characters)
      (text : a.text = p ++ c ++ u) (cursor : a.cursor = Location.endOf p)
      (piece : c = ((a.line a.cursor.row).drop a.cursor.col).take
        (if e = .deleteChar then count else (a.line a.cursor.row).length))
      (rest : left = p ++ u) : Takes a count left e c
  | selection {e : EditName} {p c u : Text} (he : e.extent? = some .selection)
      (text : a.text = p ++ c ++ u)
      (ends : a.selection.start.ordered a.selection.stop
        = (Location.endOf p, Location.endOf (p ++ c)))
      (rest : left = if e = .yankSelection then a.text else p ++ u) : Takes a count left e c
  | rows {e : EditName} (he : e.extent? = some .rows)
      (rest : left = Text.joinLines (a.lines.take a.cursor.row ++ instead (a.affected count) e
        ++ a.lines.drop (a.cursor.row + count))) :
    Takes a count left e (Text.joinLines (a.affected count) ++ ['\n'])

/-- The cursor is at the end of its row where an edit takes from it, or the selection is empty where an
edit takes that. -/
def FindsNothing (a : TextArea) (e : EditName) : Prop :=
  match e.extent? with
  | some .characters => a.cursor.col = (a.line a.cursor.row).length
  | some .selection => a.selection.start = a.selection.stop
  | some .rows | none => False

end TextArea

namespace TextArea
variable {a : TextArea} {e : EditName} {count : ℕ}

theorem ordered_eq_pair_iff {x y l : Location} : x.ordered y = (l, l) ↔ x = l ∧ y = l := by
  unfold Location.ordered
  split <;> simp [and_comm]

/-- An edit takes the empty text just where it finds nothing to take. -/
theorem Takes.eq_nil_iff (hc : a.cursor.Within a.lines) (hcount : 0 < count) {left c : Text}
    (h : a.Takes count left e c) : c = [] ↔ a.FindsNothing e := by
  have hcol : a.cursor.col ≤ (a.line a.cursor.row).length := hc.col
  cases h with
  | characters he text cursor piece rest =>
    have hlength := congrArg List.length piece
    rw [List.length_take, List.length_drop] at hlength
    rw [FindsNothing, he, ← List.length_eq_zero_iff, hlength]
    split <;> omega
  | @selection p _ u he text ends rest =>
    rw [FindsNothing, he]
    constructor
    · rintro rfl
      rw [List.append_nil, ordered_eq_pair_iff] at ends
      exact ends.1.trans ends.2.symm
    · intro heq
      -- Both ends are at the same index, and what stands between them is as long as they are apart.
      have hpair := ordered_eq_pair_iff.mpr ⟨heq, rfl⟩
      obtain ⟨hx, hy⟩ := offset_parts text
      rw [ends] at hpair
      obtain ⟨hp, hpc⟩ := Prod.mk.inj hpair
      rw [hp] at hx
      rw [hpc] at hy
      exact List.length_eq_zero_iff.mp (by omega)
  | rows he rest => simp [FindsNothing, he]

end TextArea

namespace Desk
variable {d : Desk} {a : Action} {e : EditName} {count : ℕ}

@[simp] theorem unnamed_yank (d : Desk) (t : Text) : (d.yank t).state.unnamed = t :=
  Bank.get_set_self _ _ _

/-- The characters of a row from the cursor to a later column, cut out of the text. -/
theorem cut_takes (hc : d.area.cursor.Within d.area.lines) {stop : ℕ} (hl : d.col ≤ stop)
    (hr : stop ≤ (d.area.line d.row).length) :
    ∃ p c u, d.area.text = p ++ c ++ u ∧ d.area.cursor = Location.endOf p ∧
      c = ((d.area.line d.row).drop d.col).take (stop - d.col) ∧
      (d.cut d.area.cursor ⟨d.row, stop⟩).area.text = p ++ u ∧
      (d.cut d.area.cursor ⟨d.row, stop⟩).state.unnamed = c := by
  obtain ⟨p, c, u, ht, hp, hpc, hlen, hno⟩ := row_parts hc hl hr
  refine ⟨p, c, u, ht, hp, ?_, ?_⟩
  · -- What follows the cursor in its row begins with the piece.
    obtain ⟨y, bs, hu⟩ := List.exists_cons_of_ne_nil (Text.lines_ne_nil u)
    have hone : Text.lines c = [] ++ [c] := Text.lines_of_not_mem hno
    have hlines : Text.lines (c ++ u) = (c ++ y) :: bs := Text.lines_append hone hu
    have hparts := (Location.lines_parts p (c ++ u)).2
    rw [hlines, ← List.append_assoc, ← ht, ← hp] at hparts
    have hrow : (d.area.line d.row).drop d.col = c ++ y := (List.cons.inj hparts).1.symm
    rw [hrow, ← hlen, List.take_left]
  · have hr := removed ht
    simp only [cut, TextArea.range, hp, hpc, TextArea.between_parts ht]
    exact ⟨hr.text, hr.register⟩

theorem selection_takes (hs : d.area.Sound) (remove : Bool) :
    ∃ p c u, d.area.text = p ++ c ++ u ∧
      d.area.selection.start.ordered d.area.selection.stop
        = (Location.endOf p, Location.endOf (p ++ c)) ∧
      (d.takeSelection remove).area.text = (if remove then p ++ u else d.area.text) ∧
      (d.takeSelection remove).state.unnamed = c := by
  obtain ⟨p, c, u, ht, hsel, hends⟩ := selection_parts hs.start hs.stop
  refine ⟨p, c, u, ht, hends, ?_⟩
  have hr := removed ht
  simp only [takeSelection, hsel, hends]
  cases remove with
  | false => exact ⟨rfl, hr.register⟩
  | true => exact ⟨hr.text, hr.register⟩

theorem state_deleteRows (d : Desk) (first last : ℕ) :
    (d.deleteRows first last).state = d.state := by
  unfold deleteRows
  simp only
  split
  · rfl
  · split <;> rfl

/-- An edit of whole rows puts them into the register. -/
theorem unnamed_edit_rows (he : e.extent? = some .rows) (d : Desk) (count : ℕ) :
    (d.edit count e).state.unnamed = (d.rows count).2 := by
  cases e with
  | yankLine => exact d.unnamed_yank _
  | changeLine => exact d.unnamed_yank _
  | deleteLine =>
    have hstate := state_deleteRows (d.yank (d.rows count).2) d.row (d.rows count).1
    exact (congrArg State.unnamed hstate).trans (d.unnamed_yank _)
  | _ => cases he

/-- An edit that cuts the cursor's row takes the characters that it asks for, or as many as there are. -/
theorem takes_of_cut (hc : d.area.cursor.Within d.area.lines) (he : e.extent? = some .characters)
    {stop : ℕ} (hedit : d.edit count e = d.cut d.area.cursor ⟨d.row, stop⟩)
    (hstop : stop = min (d.area.line d.row).length
      (d.col + if e = .deleteChar then count else (d.area.line d.row).length)) :
    d.area.Takes count (d.edit count e).area.text e (d.edit count e).state.unnamed := by
  have hl : d.col ≤ stop := hstop ▸ Nat.le_min.mpr ⟨hc.col, Nat.le_add_right _ _⟩
  have hr : stop ≤ (d.area.line d.row).length := hstop ▸ Nat.min_le_left _ _
  obtain ⟨p, c, u, ht, hp, hcut, hleft, hreg⟩ := cut_takes hc hl hr
  have hpiece : c = ((d.area.line d.row).drop d.col).take
      (if e = .deleteChar then count else (d.area.line d.row).length) := by
    rw [hcut, List.take_eq_take_iff, List.length_drop]
    omega
  rw [hedit, hreg]
  exact .characters he ht hp hpiece hleft

theorem takes_of_selection (hs : d.area.Sound) (he : e.extent? = some .selection)
    (hedit : d.edit count e = d.takeSelection (decide (e ≠ .yankSelection))) :
    d.area.Takes count (d.edit count e).area.text e (d.edit count e).state.unnamed := by
  obtain ⟨p, c, u, ht, hends, hleft, hreg⟩ := selection_takes hs (decide (e ≠ .yankSelection))
  rw [hedit, hreg]
  refine .selection he ht hends ?_
  rw [hleft]
  by_cases hy : e = .yankSelection <;> simp [hy]

/-- An edit of whole rows takes those that the count takes in, and leaves others in their place. -/
theorem takes_of_rows (hc : d.area.cursor.Within d.area.lines) (hcount : 0 < count)
    (he : e.extent? = some .rows)
    (hleft : (d.edit count e).area.text = Text.joinLines (d.area.lines.take d.row
      ++ TextArea.instead (d.area.affected count) e ++ d.area.lines.drop ((d.rows count).1 + 1))) :
    d.area.Takes count (d.edit count e).area.text e (d.edit count e).state.unnamed := by
  obtain ⟨-, -, hdrop, htext⟩ := d.rows_eq hc.row hcount
  rw [unnamed_edit_rows he, htext]
  refine .rows he ?_
  rw [hleft, hdrop]
  rfl

/-- With the cursor and the selection in the text, an edit that takes a piece takes it into the
register. -/
theorem edit_takes (hs : d.area.Sound) (hcount : 0 < count) (he : e.extent? ≠ none) :
    d.area.Takes count (d.edit count e).area.text e (d.edit count e).state.unnamed := by
  obtain ⟨hfirst, hlast, hdrop, -⟩ := d.rows_eq hs.cursor.row hcount
  cases e with
  | deleteChar => exact takes_of_cut hs.cursor rfl rfl rfl
  | deleteToLineEnd => exact takes_of_cut hs.cursor rfl rfl (by simp)
  | changeToLineEnd => exact takes_of_cut hs.cursor rfl rfl (by simp)
  | deleteSelection => exact takes_of_selection hs rfl rfl
  | changeSelection => exact takes_of_selection hs rfl rfl
  | yankSelection => exact takes_of_selection hs rfl rfl
  | yankLine =>
    refine takes_of_rows hs.cursor hcount rfl ?_
    rw [hdrop]
    exact TextArea.text_of_lines (d.area.take_affected_drop count).symm
  | deleteLine =>
    refine takes_of_rows hs.cursor hcount rfl ?_
    rw [TextArea.instead, List.append_nil]
    exact text_deleteRows (d := d.yank (d.rows count).2) hfirst hlast
  | changeLine =>
    have hrows : (d.rows count).1 < d.area.lines.length := by
      have hlength := d.area.lastRow_add_one
      omega
    exact takes_of_rows hs.cursor hcount rfl
      (TextArea.text_of_lines (TextArea.lines_delete_rows hfirst hrows))
  | pasteAfter => exact absurd rfl he
  | pasteBefore => exact absurd rfl he
  | undo => exact absurd rfl he
  | redo => exact absurd rfl he

theorem state_paste (d : Desk) (after : Bool) (count : ℕ) :
    (d.paste after count).state = d.state := by
  unfold paste
  simp only
  split_ifs <;> rfl

theorem state_edit (he : e.extent? = none) : (d.edit count e).state = d.state := by
  cases e with
  | pasteAfter => exact d.state_paste true count
  | pasteBefore => exact d.state_paste false count
  | undo => rfl
  | redo => rfl
  | _ => cases he

/-- After an edit the unnamed register holds exactly the text that the edit took: characters of the
cursor's row, whole rows, or the selection; an edit that takes none leaves it alone. But an edit may
find nothing to take, at the end of a row or with nothing selected, and this is where a text that was in
the register is lost. -/
theorem register_after_edit (d : Desk) (hs : d.area.Sound) (a : Action) (hk : a.kind = .edit) :
    let now := (d.apply a).1
    let edit? := EditName.names.lookup (a.name.getD "")
    (∀ e, edit? = some e → e.extent? ≠ none →
      d.area.Takes a.count now.area.text e now.state.unnamed) ∧
    (edit?.bind EditName.extent? = none → now.state.unnamed = d.state.unnamed) ∧
    (d.state.unnamed ≠ [] →
      (now.state.unnamed = [] ↔ ∃ e, edit? = some e ∧ d.area.FindsNothing e)) := by
  intro now edit?
  have htakes : ∀ e, edit? = some e → e.extent? ≠ none →
      d.area.Takes a.count now.area.text e now.state.unnamed := by
    intro e hn he
    rcases apply_edit_cases (d := d) hk hn with ⟨-, os, happly⟩ | ⟨f, os, hf, -⟩
    · have hbegun : (d.begun a).area.Sound := hs
      simp only [now, happly]
      exact edit_takes hbegun a.count_pos he
    · -- Only the putting back of the register is ever refused.
      cases e with
      | pasteAfter => exact absurd rfl he
      | pasteBefore => exact absurd rfl he
      | _ => cases hf
  have hkeeps : edit?.bind EditName.extent? = none → now.state.unnamed = d.state.unnamed := by
    intro h
    cases hn : edit? with
    | none =>
      obtain ⟨os, happly⟩ := apply_edit_unknown (d := d) hk hn
      simp only [now, happly]
    | some e =>
      rw [hn] at h
      rcases apply_edit_cases (d := d) hk hn with ⟨-, os, happly⟩ | ⟨f, os, -, happly⟩
      · simp only [now, happly, state_edit h]
        rfl
      · simp only [now, happly]
  refine ⟨htakes, hkeeps, fun hne => ?_⟩
  constructor
  · intro hnil
    cases he : edit?.bind EditName.extent? with
    | none => exact absurd ((hkeeps he).symm.trans hnil) hne
    | some x =>
      obtain ⟨e, hn, hx⟩ := Option.bind_eq_some_iff.mp he
      have ht := htakes e hn (by simp [hx])
      exact ⟨e, hn, (ht.eq_nil_iff hs.cursor a.count_pos).mp hnil⟩
  · rintro ⟨e, hn, hfinds⟩
    have he : e.extent? ≠ none := by
      intro hnone
      simp [TextArea.FindsNothing, hnone] at hfinds
    exact ((htakes e hn he).eq_nil_iff hs.cursor a.count_pos).mpr hfinds

def holdingX (t : Text) : Desk :=
  { state := { registers := Bank.set {} Bank.unnamed ['x'] }, area := { text := t } }

/-- Both rows are taken, and the register loses its text to theirs. -/
theorem register_after_two_rows :
    (holdingX ['a', '\n', 'b']).area.Sound ∧
    let now := ((holdingX ['a', '\n', 'b']).apply
      { kind := .edit, name := some "delete-line", count := 2 }).1
    (holdingX ['a', '\n', 'b']).area.Takes 2 now.area.text .deleteLine now.state.unnamed ∧
      now.area.text = [] ∧ now.state.unnamed = ['a', '\n', 'b', '\n'] := by
  have hs : (holdingX ['a', '\n', 'b']).area.Sound := TextArea.sound_fresh _ false
  obtain ⟨htakes, -, -⟩ := register_after_edit _ hs
    { kind := .edit, name := some "delete-line", count := 2 } rfl
  exact ⟨hs, htakes .deleteLine rfl (by decide), by decide +kernel, by decide +kernel⟩

/-- In an empty text there is no character to delete. The text stays as it is, and the register is
cleared. -/
theorem register_cleared_in_empty_text :
    (holdingX []).area.Sound ∧ (holdingX []).state.unnamed = ['x'] ∧
    let now := (holdingX []).apply { kind := .edit, name := some "delete-char" }
    now.2 = none ∧ now.1.area.text = (holdingX []).area.text ∧ now.1.state.unnamed = [] :=
  ⟨TextArea.sound_fresh _ false, by decide, by decide +kernel, by decide +kernel, by decide +kernel⟩

end Desk
end ModalEditing
