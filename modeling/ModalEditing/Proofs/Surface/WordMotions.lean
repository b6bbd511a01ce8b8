import ModalEditing.Proofs.Surface.Moving
import ModalEditing.Proofs.TextArea.WordEnds
import ModalEditing.Proofs.TextArea.WordStarts

namespace ModalEditing.Desk
open Motion
variable {d : Desk} {a : Action} {m : Motion} {x y : Location}

/-- An action that moves leads where its motion does. -/
theorem apply_motion (hk : a.kind = .motion) (hm : Motion.read (a.name.getD "") = (false, some m))
    (hc : d.area.cursor.Within d.area.lines) :
    (d.apply a).2 = none ∧
      (d.apply a).1.area.cursor = m.target d.area.lines d.area.cursor a.count := by
  have hperform : (d.begun a).perform? a
      = some ((d.begun a).move (m.target d.area.lines d.area.cursor a.count), none) := by
    rw [perform?_motion hk, applyMotion_move hm]
    rfl
  obtain ⟨os, happly⟩ := apply_of_perform hperform
  rw [happly]
  exact ⟨rfl, TextArea.cursor_moveCursor (m.target_within hc a.count) false⟩

/-- An action that selects does so from one location to another, if its motion does. -/
theorem apply_select (hk : a.kind = .motion) (hm : Motion.read (a.name.getD "") = (true, some m))
    (hx : x.Within d.area.lines) (hy : y.Within d.area.lines)
    (hto : (d.begun a).selectTo (m.target d.area.lines d.area.cursor a.count)
      = (((d.begun a).move x).move y true, none)) :
    (d.apply a).2 = none ∧ (d.apply a).1.area.selection = ⟨x, y⟩ := by
  have hperform : (d.begun a).perform? a = some (((d.begun a).move x).move y true, none) := by
    rw [perform?_motion hk, applyMotion_select hm]
    exact congrArg some hto
  obtain ⟨os, happly⟩ := apply_of_perform hperform
  rw [happly]
  exact ⟨rfl, TextArea.selection_select hx hy⟩

/-- The motion to the next word comes to the places to stop one after another. These are where words
start behind the cursor, and the ends of the rows below it that have no word. With a count of `n` it leads
to the `n`-th, or past the last of them to the end of the text. -/
theorem word_forward_to_stop (d : Desk) (hc : d.area.cursor.Within d.area.lines) (n : ℕ) (hn : 0 < n) :
    let ls := d.area.lines
    let here := d.area.cursor
    let stops := forwardStops ls here
    let there := stops.getD (n - 1) (lastEnd ls)
    (∀ s, s ∈ stops ↔ s.Within ls ∧
      (here.before s = true ∧ Text.startsWord (lineOf ls s.row) s.col = true ∨
        here.row < s.row ∧ (lineOf ls s.row).all Text.isBlank = true ∧
          s.col = (lineOf ls s.row).length)) ∧
    stops.Pairwise (fun s s' => s.before s' = true) ∧
    Motion.wordForward.target ls here n = there ∧
    ∀ a : Action, a.kind = .motion → a.name = some "word-forward" → a.count = n →
      (d.apply a).2 = none ∧ (d.apply a).1.area.cursor = there := by
  intro ls here stops there
  have hto : Motion.wordForward.target ls here n = there := wordForward_target hc hn
  refine ⟨fun s => ?_, (Location.pairwise_all ls).filter _, hto, fun a hk hname hcount => ?_⟩
  · exact mem_forwardStops
  · have hm : Motion.read (a.name.getD "") = (false, some .wordForward) := by
      rw [hname]
      decide +kernel
    rw [← hto, ← hcount]
    exact apply_motion hk hm hc

/-- From inside the first word a count of four leads over a row of blanks and an empty one to the first word
of an indented row, and a greater one than there are places to stop to the end of that row. -/
theorem word_forward_over_blank_rows :
    let d : Desk := { state := {}, area :=
      { text := "ab c\n   \n\n  d e".toList, cursor := ⟨0, 1⟩ } }
    let four : Action := { kind := .motion, name := some "word-forward", count := 4 }
    let nine : Action := { kind := .motion, name := some "word-forward", count := 9 }
    d.area.cursor.Within d.area.lines ∧ 0 < 4 ∧ 0 < 9 ∧
    (d.apply four).1.area.cursor = ⟨3, 2⟩ ∧ (d.apply nine).1.area.cursor = ⟨3, 5⟩ := by
  intro d four nine
  have hc : d.area.cursor.Within d.area.lines := ⟨by decide +kernel, by decide +kernel⟩
  have hstops : forwardStops d.area.lines d.area.cursor
      = [⟨0, 3⟩, ⟨1, 3⟩, ⟨2, 0⟩, ⟨3, 2⟩, ⟨3, 4⟩] := by
    decide +kernel
  obtain ⟨-, -, -, hfour⟩ := word_forward_to_stop d hc 4 (by decide)
  obtain ⟨-, -, -, hnine⟩ := word_forward_to_stop d hc 9 (by decide)
  refine ⟨hc, by decide, by decide, (hfour four rfl rfl rfl).2.trans ?_,
    (hnine nine rfl rfl rfl).2.trans ?_⟩
  · rw [hstops]
    rfl
  · rw [hstops]
    decide +kernel

/-- The motion to the end of a word comes to the ends of words behind the cursor one after another,
whatever rows without words are between them. With a count of `n` it leads to the `n`-th, or past the last
of them to the last character of the text. -/
theorem word_end_to_stop (d : Desk) (hc : d.area.cursor.Within d.area.lines) (n : ℕ) (hn : 0 < n) :
    let ls := d.area.lines
    let here := d.area.cursor
    let stops := endStops ls here
    let there := stops.getD (n - 1) ⟨ls.length - 1, (lineOf ls (ls.length - 1)).length - 1⟩
    (∀ s, s ∈ stops ↔
      s.Within ls ∧ here.before s = true ∧ Text.endsWord (lineOf ls s.row) s.col = true) ∧
    stops.Pairwise (fun s s' => s.before s' = true) ∧
    Motion.wordEnd.target ls here n = there ∧
    ∀ a : Action, a.kind = .motion → a.name = some "word-end" → a.count = n →
      (d.apply a).2 = none ∧ (d.apply a).1.area.cursor = there := by
  intro ls here stops there
  have hto : Motion.wordEnd.target ls here n = there := wordEnd_target hc hn
  refine ⟨fun s => mem_endStops, (Location.pairwise_all ls).filter _, hto, fun a hk hname hcount => ?_⟩
  have hm : Motion.read (a.name.getD "") = (false, some .wordEnd) := by
    rw [hname]
    decide +kernel
  rw [← hto, ← hcount]
  exact apply_motion hk hm hc

/-- From the end of the first word a count of two leads over rows without words to the end of the third,
and a count of three past the last word to the blank that the text ends with. -/
theorem word_end_over_blank_rows :
    let d : Desk := { state := {}, area :=
      { text := "ab cd\n   \n\n  ef ".toList, cursor := ⟨0, 1⟩ } }
    let two : Action := { kind := .motion, name := some "word-end", count := 2 }
    let three : Action := { kind := .motion, name := some "word-end", count := 3 }
    d.area.cursor.Within d.area.lines ∧ 0 < 2 ∧ 0 < 3 ∧
    (d.apply two).1.area.cursor = ⟨3, 3⟩ ∧ (d.apply three).1.area.cursor = ⟨3, 4⟩ := by
  intro d two three
  have hc : d.area.cursor.Within d.area.lines := ⟨by decide +kernel, by decide +kernel⟩
  have hstops : endStops d.area.lines d.area.cursor = [⟨0, 4⟩, ⟨3, 3⟩] := by decide +kernel
  obtain ⟨-, -, -, htwo⟩ := word_end_to_stop d hc 2 (by decide)
  obtain ⟨-, -, -, hthree⟩ := word_end_to_stop d hc 3 (by decide)
  refine ⟨hc, by decide, by decide, (htwo two rfl rfl rfl).2.trans ?_,
    (hthree three rfl rfl rfl).2.trans ?_⟩
  · rw [hstops]
    rfl
  · rw [hstops]
    decide +kernel

/-- The motion to the word before comes to the places to stop one after another, back from the cursor.
These are where words and rows start before it. With a count of `n` it leads to the `n`-th, or past the
last of them to the start of the text. -/
theorem word_backward_to_stop (d : Desk) (hc : d.area.cursor.Within d.area.lines) (n : ℕ) (hn : 0 < n) :
    let ls := d.area.lines
    let here := d.area.cursor
    let stops := backwardStops ls here
    let there := stops.getD (n - 1) ⟨0, 0⟩
    (∀ s, s ∈ stops ↔ s.Within ls ∧ s.before here = true ∧
      (s.col = 0 ∨ Text.startsWord (lineOf ls s.row) s.col = true)) ∧
    stops.Pairwise (fun s s' => s'.before s = true) ∧
    Motion.wordBackward.target ls here n = there ∧
    ∀ a : Action, a.kind = .motion → a.name = some "word-backward" → a.count = n →
      (d.apply a).2 = none ∧ (d.apply a).1.area.cursor = there := by
  intro ls here stops there
  have hto : Motion.wordBackward.target ls here n = there := wordBackward_target hc hn
  have horder : (Location.all ls).reverse.Pairwise fun s s' => s'.before s = true :=
    List.pairwise_reverse.mpr (Location.pairwise_all ls)
  refine ⟨fun s => mem_backwardStops, horder.filter _, hto, fun a hk hname hcount => ?_⟩
  have hm : Motion.read (a.name.getD "") = (false, some .wordBackward) := by
    rw [hname]
    decide +kernel
  rw [← hto, ← hcount]
  exact apply_motion hk hm hc

/-- From the blank behind the first word of an indented row a count of five leads over the start of that
row, an empty row and a row of blanks to the last word of the first row, and a greater one than there are
places to stop to the start of the text. -/
theorem word_backward_over_blank_rows :
    let d : Desk := { state := {}, area :=
      { text := "ab cd\n   \n\n  ef g".toList, cursor := ⟨3, 4⟩ } }
    let five : Action := { kind := .motion, name := some "word-backward", count := 5 }
    let nine : Action := { kind := .motion, name := some "word-backward", count := 9 }
    d.area.cursor.Within d.area.lines ∧ 0 < 5 ∧ 0 < 9 ∧
    (d.apply five).1.area.cursor = ⟨0, 3⟩ ∧ (d.apply nine).1.area.cursor = ⟨0, 0⟩ := by
  intro d five nine
  have hc : d.area.cursor.Within d.area.lines := ⟨by decide +kernel, by decide +kernel⟩
  have hstops : backwardStops d.area.lines d.area.cursor
      = [⟨3, 2⟩, ⟨3, 0⟩, ⟨2, 0⟩, ⟨1, 0⟩, ⟨0, 3⟩, ⟨0, 0⟩] := by
    decide +kernel
  obtain ⟨-, -, -, hfive⟩ := word_backward_to_stop d hc 5 (by decide)
  obtain ⟨-, -, -, hnine⟩ := word_backward_to_stop d hc 9 (by decide)
  refine ⟨hc, by decide, by decide, (hfive five rfl rfl rfl).2.trans ?_,
    (hnine nine rfl rfl rfl).2.trans ?_⟩
  · rw [hstops]
    rfl
  · rw [hstops]
    rfl

/-- A desk where all from the anchor on to the cursor is selected. -/
structure SelectsForward (d : Desk) : Prop where
  cursor : d.area.cursor.Within d.area.lines
  start : d.area.selection.start.Within d.area.lines
  stop : d.area.selection.stop = d.area.cursor
  anchor : d.anchor.getD d.area.cursor = d.area.selection.start
  forward : d.area.cursor.before d.area.selection.start = false

namespace SelectsForward

theorem begun (h : d.SelectsForward) (a : Action) : (d.begun a).SelectsForward :=
  ⟨h.cursor, h.start, h.stop, h.anchor, h.forward⟩

theorem selectTo_chars (h : d.SelectsForward) (hmode : d.state.mode = .visual) (l : Location) :
    d.selectTo l = ((d.move d.area.selection.start).move l true, none) := by
  rw [Desk.selectTo_chars (by rw [hmode]; decide), h.anchor]

/-- In visual line mode whole rows are selected, on to one that is not above the cursor's. -/
theorem selectTo_rows (h : d.SelectsForward) (hmode : d.state.mode = .visualLine)
    (hstart : d.area.selection.start.col = 0) {l : Location} (hrow : d.area.cursor.row ≤ l.row) :
    d.selectTo l = ((d.move d.area.selection.start).move ⟨l.row, (d.area.line l.row).length⟩ true, none) := by
  have hanchor : d.area.selection.start = ⟨d.area.selection.start.row, 0⟩ := Location.eq_of rfl hstart
  have hforward := h.forward
  have hnot : l.before d.area.selection.start = false := by
    rw [hanchor, ← Bool.not_eq_true, Location.before_rowStart_iff] at hforward ⊢
    omega
  rw [selectTo, if_neg (not_not.mpr hmode), h.anchor, hnot, ← hanchor]
  rfl

end SelectsForward

/-- The motion to the end of a word leads back from one place alone, that behind the last character of the
text: from there it leads to that character. So in visual mode a selection that runs forward from its
anchor goes on or stays as it is, unless it ends at that place; and in visual line mode it always does. -/
theorem word_end_back_iff (d : Desk) (hc : d.area.cursor.Within d.area.lines) (n : ℕ) (hn : 0 < n) :
    let ls := d.area.lines
    let here := d.area.cursor
    let there := Motion.wordEnd.target ls here n
    let last : Location := ⟨ls.length - 1, (lineOf ls (ls.length - 1)).length⟩
    (there.before here = true ↔ here = last ∧ 0 < here.col) ∧
    (here = last → there = ⟨here.row, here.col - 1⟩) ∧
    (d.SelectsForward → ∀ a : Action, a.kind = .motion → a.name = some "select-word-end" → a.count = n →
      let old := d.area.selection
      let new := (d.apply a).1.area.selection
      (d.state.mode = .visual → (d.apply a).2 = none ∧ new.start = old.start ∧
        (new.stop.before old.stop = true ↔ here = last ∧ 0 < here.col)) ∧
      (d.state.mode = .visualLine → old.start.col = 0 → (d.apply a).2 = none ∧ new.start = old.start ∧
        new.stop.before old.stop = false)) := by
  intro ls here there last
  obtain ⟨hback, hlast⟩ := wordEnd_before_iff hc hn
  refine ⟨hback, hlast, fun h a hk hname hcount => ?_⟩
  intro old new
  have hm : Motion.read (a.name.getD "") = (true, some .wordEnd) := by
    rw [hname]
    decide +kernel
  subst hcount
  have hwithin : there.Within ls := Motion.wordEnd.target_within hc a.count
  have hstop : old.stop = here := h.stop
  constructor
  · intro hmode
    obtain ⟨hnone, hnew⟩ := apply_select hk hm h.start hwithin ((h.begun a).selectTo_chars hmode there)
    have hnew : new = ⟨old.start, there⟩ := hnew
    rw [hnew, hstop]
    exact ⟨hnone, rfl, hback⟩
  · intro hmode hstart
    have hrow : here.row ≤ there.row := row_le_wordEnd hc hn
    have hend : Location.Within ls ⟨there.row, (lineOf ls there.row).length⟩ :=
      ⟨hwithin.row, Nat.le_refl _⟩
    obtain ⟨hnone, hnew⟩ := apply_select hk hm h.start hend ((h.begun a).selectTo_rows hmode hstart hrow)
    have hnew : new = ⟨old.start, ⟨there.row, (lineOf ls there.row).length⟩⟩ := hnew
    rw [hnew, hstop]
    refine ⟨hnone, rfl, Location.before_eq_false_iff.mpr ?_⟩
    rcases Nat.lt_or_eq_of_le hrow with hlt | hsame
    · exact .inl hlt
    · have hcol : here.col ≤ (lineOf ls here.row).length := hc.col
      rw [hsame] at hcol
      exact .inr ⟨hsame.symm, hcol⟩

/-- A selection to the end of the first of two rows goes on to the end of a word of the second, or in visual
line mode to the end of that row. -/
theorem word_end_extends_selection :
    let d : Desk := { state := { mode := .visual }, anchor := some ⟨0, 0⟩, area :=
      { text := "ab\ncd e".toList, cursor := ⟨0, 2⟩, selection := ⟨⟨0, 0⟩, ⟨0, 2⟩⟩ } }
    let rows : Desk := { d with state := { mode := .visualLine } }
    let a : Action := { kind := .motion, name := some "select-word-end" }
    d.area.cursor.Within d.area.lines ∧ 0 < 1 ∧ d.SelectsForward ∧ rows.SelectsForward ∧
    (Motion.wordEnd.target d.area.lines d.area.cursor 1).before d.area.cursor = false ∧
    (d.apply a).1.area.selection.start = ⟨0, 0⟩ ∧
    (d.apply a).1.area.selection.stop.before ⟨0, 2⟩ = false ∧
    (rows.apply a).1.area.selection.start = ⟨0, 0⟩ ∧
    (rows.apply a).1.area.selection.stop.before ⟨0, 2⟩ = false := by
  intro d rows a
  have hc : d.area.cursor.Within d.area.lines := ⟨by decide +kernel, by decide +kernel⟩
  have hstart : Location.Within d.area.lines ⟨0, 0⟩ := ⟨by decide +kernel, Nat.zero_le _⟩
  have hforward : d.SelectsForward := ⟨hc, hstart, rfl, rfl, rfl⟩
  have hrows : rows.SelectsForward := ⟨hc, hstart, rfl, rfl, rfl⟩
  obtain ⟨hback, -, hselects⟩ := word_end_back_iff d hc 1 (by decide)
  obtain ⟨-, -, hselects'⟩ := word_end_back_iff rows hc 1 (by decide)
  obtain ⟨-, hfrom, hshrinks⟩ := (hselects hforward a rfl rfl rfl).1 rfl
  obtain ⟨-, hfrom', hgrows⟩ := (hselects' hrows a rfl rfl rfl).2 rfl rfl
  have hnot : ¬ (d.area.cursor = ⟨d.area.lines.length - 1,
      (lineOf d.area.lines (d.area.lines.length - 1)).length⟩ ∧ 0 < d.area.cursor.col) := by
    decide +kernel
  exact ⟨hc, by decide, hforward, hrows, Bool.eq_false_iff.mpr fun h => hnot (hback.mp h), hfrom,
    Bool.eq_false_iff.mpr fun h => hnot (hshrinks.mp h), hfrom', hgrows⟩

/-- From behind the last character of the text the motion leads back, and the selection shrinks. -/
theorem word_end_back_from_end :
    let d : Desk := { state := { mode := .visual }, anchor := some ⟨0, 0⟩, area :=
      { text := ['a', 'b'], cursor := ⟨0, 2⟩, selection := ⟨⟨0, 0⟩, ⟨0, 2⟩⟩ } }
    let a : Action := { kind := .motion, name := some "select-word-end" }
    d.area.cursor.Within d.area.lines ∧ d.SelectsForward ∧
    Motion.wordEnd.target d.area.lines d.area.cursor 1 = ⟨0, 1⟩ ∧
    Location.before ⟨0, 1⟩ d.area.cursor = true ∧
    (d.apply a).1.area.selection = ⟨⟨0, 0⟩, ⟨0, 1⟩⟩ := by
  intro d a
  have hc : d.area.cursor.Within d.area.lines := ⟨by decide, by decide⟩
  exact ⟨hc, ⟨hc, ⟨by decide, by decide⟩, rfl, rfl, rfl⟩, by decide +kernel, by decide, by decide +kernel⟩

end ModalEditing.Desk
