import ModalEditing.Proofs.Surface.Pressing
import ModalEditing.Proofs.TextArea.Location

namespace ModalEditing

namespace TextArea
variable {a : TextArea} {p c u : Text}

theorem offset_endOf (h : a.text = p ++ u) : a.offset (Location.endOf p) = p.length := by
  obtain ⟨hp, hl⟩ := Location.endOf_within p u
  rw [offset, lines, h, hp.clampTo_eq, hl]

theorem offset_parts (h : a.text = p ++ c ++ u) :
    a.offset (Location.endOf p) = p.length ∧
      a.offset (Location.endOf (p ++ c)) = p.length + c.length :=
  ⟨offset_endOf (h.trans (List.append_assoc p c u)), (offset_endOf h).trans List.length_append⟩

theorem between_parts (h : a.text = p ++ c ++ u) :
    a.between (Location.endOf p) (Location.endOf (p ++ c)) = c := by
  obtain ⟨hp, hc⟩ := offset_parts h
  simp [between, hp, hc, h]

theorem between_comm (a : TextArea) (x y : Location) : a.between x y = a.between y x := by
  simp only [between, Nat.min_comm, Nat.max_comm]

theorem text_delete_parts (h : a.text = p ++ c ++ u) :
    (a.delete (Location.endOf p) (Location.endOf (p ++ c))).text = p ++ u := by
  obtain ⟨hp, hc⟩ := offset_parts h
  simp [delete, edit, setText, note, hp, hc, h, List.drop_append]

theorem text_insert_endOf (h : a.text = p ++ u) (c : Text) :
    (a.insert c (Location.endOf p)).text = p ++ c ++ u := by
  simp [insert, edit, setText, note, offset_endOf h, h]

/-- Text put in at the start of a row goes before what the row has up to a location in it. -/
theorem text_insert_row (h : a.text = p ++ u) (c : Text) :
    ∃ q l, p = q ++ l ∧ '\n' ∉ l ∧ l.length = (Location.endOf p).col ∧
      (a.insert c ⟨(Location.endOf p).row, 0⟩).text = q ++ c ++ l ++ u := by
  obtain ⟨q, l, rfl, hl, hq, hlen⟩ := Location.exists_lastLine p
  refine ⟨q, l, rfl, hl, hlen, ?_⟩
  rw [← hq, text_insert_endOf (h.trans (List.append_assoc q l u)), ← List.append_assoc]

end TextArea

namespace Desk
variable {d : Desk} {p c u : Text}

/-- A desk whose text was `p ++ c ++ u` until `c` was moved into the unnamed register. -/
structure Removed (p c u : Text) (d : Desk) : Prop where
  text : d.area.text = p ++ u
  register : d.state.unnamed = c
  cursor : d.area.cursor = Location.endOf p

/-- The register holds a piece of this text, and the text area the rest of it. -/
def HasCut (t : Text) (d : Desk) : Prop :=
  ∃ p u, t = p ++ d.state.unnamed ++ u ∧ d.area.text = p ++ u

theorem Removed.hasCut (h : Removed p c u d) : d.HasCut (p ++ c ++ u) :=
  ⟨p, u, by rw [h.register], h.text⟩

theorem removed (h : d.area.text = p ++ c ++ u) :
    Removed p c u (((d.yank c).delete (Location.endOf p) (Location.endOf (p ++ c))).move
      (Location.endOf p)) := by
  have ht := TextArea.text_delete_parts h
  have hp := (Location.endOf_within p u).1.clampTo_eq
  rw [← ht] at hp
  exact ⟨ht, Bank.get_set_self _ _ _, hp⟩

/-- The parts of a text before the cursor, from there to a later location of its row, and behind that.
There is no newline in the one between. -/
theorem row_parts {stop : ℕ} (hc : d.area.cursor.Within d.area.lines) (hl : d.col ≤ stop)
    (hr : stop ≤ (d.area.line d.row).length) :
    ∃ p c u, d.area.text = p ++ c ++ u ∧ d.area.cursor = Location.endOf p ∧
      ⟨d.row, stop⟩ = Location.endOf (p ++ c) ∧ c.length = stop - d.col ∧ '\n' ∉ c := by
  have hend : Location.Within d.area.lines ⟨d.row, stop⟩ := ⟨hc.row, hr⟩
  have hcursor : offsetIn d.area.lines d.area.cursor = offsetIn d.area.lines ⟨d.row, 0⟩ + d.col :=
    Location.offsetIn_row hc.row d.col
  have hstop : offsetIn d.area.lines ⟨d.row, stop⟩ = offsetIn d.area.lines ⟨d.row, 0⟩ + stop :=
    Location.offsetIn_row hc.row stop
  have hle : offsetIn d.area.lines d.area.cursor ≤ offsetIn d.area.lines ⟨d.row, stop⟩ := by omega
  obtain ⟨p, c, u, ht, hp, hpc⟩ := Location.exists_parts hc hend hle
  refine ⟨p, c, u, ht, hp, hpc, ?_, ?_⟩
  · obtain ⟨hx, hy⟩ := TextArea.offset_parts ht
    rw [← hp, TextArea.offset, hc.clampTo_eq] at hx
    rw [← hpc, TextArea.offset, hend.clampTo_eq] at hy
    omega
  · -- A newline would part the rows of the two ends.
    apply Location.newline_not_mem_of_row (p := p)
    rw [← hpc, ← hp]
    rfl

/-- A cut up to a later location of the cursor's row. No newline is cut. -/
theorem removed_cut {stop : ℕ} (hc : d.area.cursor.Within d.area.lines) (hl : d.col ≤ stop)
    (hr : stop ≤ (d.area.line d.row).length) :
    ∃ p c u, d.area.text = p ++ c ++ u ∧ c.length = stop - d.col ∧ '\n' ∉ c ∧
      Removed p c u (d.cut d.area.cursor ⟨d.row, stop⟩) := by
  obtain ⟨p, c, u, ht, hp, hpc, hlen, hno⟩ := row_parts hc hl hr
  refine ⟨p, c, u, ht, hlen, hno, ?_⟩
  rw [hp, hpc]
  simp only [cut, TextArea.range, TextArea.between_parts ht]
  exact removed ht

/-- The parts of a text before the selection, in it and behind it. -/
theorem selection_parts (hx : d.area.selection.start.Within d.area.lines)
    (hy : d.area.selection.stop.Within d.area.lines) :
    ∃ p c u, d.area.text = p ++ c ++ u ∧ d.area.selectedText = c ∧
      d.area.selection.start.ordered d.area.selection.stop
        = (Location.endOf p, Location.endOf (p ++ c)) := by
  obtain ⟨hxw, hyw, hle⟩ := Location.ordered_within hx hy
  obtain ⟨p, c, u, ht, hp, hpc⟩ := Location.exists_parts hxw hyw hle
  refine ⟨p, c, u, ht, ?_, Prod.ext hp hpc⟩
  -- The text selected is the same whichever end comes first.
  rw [← TextArea.between_parts ht, ← hp, ← hpc]
  unfold TextArea.selectedText Location.ordered
  split
  · exact TextArea.between_comm _ _ _
  · rfl

theorem removed_selection (hx : d.area.selection.start.Within d.area.lines)
    (hy : d.area.selection.stop.Within d.area.lines) :
    ∃ p c u, d.area.text = p ++ c ++ u ∧ Removed p c u (d.takeSelection true) := by
  obtain ⟨p, c, u, ht, hsel, hends⟩ := selection_parts hx hy
  have hr := removed ht
  refine ⟨p, c, u, ht, ?_⟩
  simp only [takeSelection, hsel, hends, if_true]
  exact ⟨hr.text, hr.register, hr.cursor⟩

theorem Removed.of_edit {a : Action} {e : EditName} (hk : a.kind = .edit)
    (hn : EditName.names.lookup (a.name.getD "") = some e) (hr : d.refusal? a.count e = none)
    (h : Removed p c u ((d.begun a).edit a.count e)) :
    ∃ d', d.apply a = (d', none) ∧ Removed p c u d' := by
  obtain ⟨os, ha⟩ := apply_edit hk hn hr
  exact ⟨_, ha, h.text, h.register, h.cursor⟩

/-- The putting back of the unnamed register, once, before the cursor. -/
def pasteBefore : Action := { kind := .edit, name := some "paste-before", count_pos := Nat.one_pos }

theorem Removed.text_paste_rows (h : Removed p c u d) (hc : c.getLast? = some '\n') :
    ∃ q l, p = q ++ l ∧ '\n' ∉ l ∧ l.length = d.col ∧
      (d.paste false 1).area.text = q ++ c ++ l ++ u := by
  have hne : c.isEmpty = false := by
    cases c with
    | nil => exact nomatch hc
    | cons x c => rfl
  have hrow : d.row = (Location.endOf p).row := congrArg Location.row h.cursor
  have hcol : d.col = (Location.endOf p).col := congrArg Location.col h.cursor
  obtain ⟨q, l, hp, hl, hlen, ht⟩ := TextArea.text_insert_row h.text c
  refine ⟨q, l, hp, hl, hlen.trans hcol.symm, ?_⟩
  have hpaste : d.paste false 1 = (d.insert c ⟨d.row, 0⟩).move ⟨d.row, 0⟩ := by
    simp [paste, h.register, hne, hc, Text.copies]
  rw [hpaste, hrow]
  exact ht

theorem Removed.text_paste_in_line (h : Removed p c u d) (hc : c.getLast? ≠ some '\n') :
    (d.paste false 1).area.text = p ++ c ++ u := by
  cases c with
  | nil => simp [paste, h.register, h.text]
  | cons x c =>
    have hpaste : d.paste false 1 = d.insert (x :: c) d.area.cursor := by
      simp [paste, h.register, hc, Text.copies, row, col]
    rw [hpaste, h.cursor]
    exact TextArea.text_insert_endOf h.text (x :: c)

/-- Putting back what was removed gives the text again, unless it ends in a newline and did not begin
a row: then it comes before all of its row. -/
theorem Removed.text_paste_iff (h : Removed p c u d) :
    (d.paste false 1).area.text = p ++ c ++ u ↔ ¬ (c.getLast? = some '\n' ∧ d.col ≠ 0) := by
  by_cases hc : c.getLast? = some '\n'
  · obtain ⟨q, l, rfl, hl, hlen, ht⟩ := h.text_paste_rows hc
    rw [ht]
    constructor
    · rintro heq ⟨-, hcol⟩
      have hcl : c ++ l = l ++ c := by simpa using List.append_cancel_right heq
      -- Both ends are the same, but only one is a newline.
      have hlast : (c ++ l).getLast? = some '\n' := by simp [hcl, List.getLast?_append, hc]
      obtain ⟨x, hx⟩ : ∃ x, l.getLast? = some x := by
        cases hg : l.getLast? with
        | none => exact absurd (hlen ▸ congrArg List.length (List.getLast?_eq_none_iff.mp hg)) hcol
        | some x => exact ⟨x, rfl⟩
      rw [List.getLast?_append, hx] at hlast
      obtain rfl : x = '\n' := by simpa using hlast
      exact hl (List.mem_of_getLast? hx)
    · intro hno
      have hcol : d.col = 0 := by simpa [hc] using hno
      obtain rfl : l = [] := List.length_eq_zero_iff.mp (hlen.trans hcol)
      simp
  · simp [h.text_paste_in_line hc, hc]

theorem Removed.put_back (h : Removed p c u d) :
    (d.apply pasteBefore).2 = none ∧
      ((d.apply pasteBefore).1.area.text = p ++ c ++ u ↔
        ¬ (c.getLast? = some '\n' ∧ d.col ≠ 0)) := by
  have hr : d.refusal? pasteBefore.count .pasteBefore = none := by
    simp [refusal?, pasteBefore, Text.copyError?]
  obtain ⟨os, ha⟩ := apply_edit (a := pasteBefore) (e := .pasteBefore) rfl rfl hr
  have h' : Removed p c u (d.begun pasteBefore) := ⟨h.text, h.register, h.cursor⟩
  rw [ha]
  exact ⟨rfl, h'.text_paste_iff⟩

end Desk
end ModalEditing
