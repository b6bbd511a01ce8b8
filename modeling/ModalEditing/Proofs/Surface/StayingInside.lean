import ModalEditing.Proofs.Surface.Careful
import ModalEditing.Proofs.Surface.FindingBack
import ModalEditing.Proofs.Surface.Refusing

namespace ModalEditing.Desk

section Edits
variable {d : Desk} {first last count : ℕ}

/-- A deletion of rows goes up to the row behind them, or begins at the end of the row above where there
is none behind, or takes the whole text. The row where it begins is still there to be read. -/
theorem careful_deleteRows (hle : first ≤ last) (hlast : last ≤ d.area.lastRow) :
    Careful d (d.deleteRows? first last) (d.deleteRows first last) := by
  have hrows := d.area.lastRow_add_one
  have hlast' : last < d.area.lines.length := by omega
  have hstop := TextArea.within_rowEnd hlast'
  unfold deleteRows?
  refine .read hlast' ?_
  by_cases hnext : last < d.area.lastRow
  · simp only [deleteRows, if_pos hnext]
    exact careful_delete_indent (TextArea.within_row (by omega)) (TextArea.within_row (by omega))
      (by simp [Location.before]; omega)
  · by_cases hfirst : 0 < first
    · have habove : first - 1 < d.area.lines.length := by omega
      simp only [deleteRows, if_neg hnext, if_pos hfirst]
      refine .read habove ?_
      exact careful_delete_indent (TextArea.within_rowEnd habove) hstop
        (by simp [Location.before]; omega)
    · simp only [deleteRows, if_neg hnext, if_neg hfirst]
      exact careful_delete_move (TextArea.within_row (by omega)) hstop (by simp [Location.before])

/-- A paste reads the cursor's row, and puts text in there, before it or behind it. -/
theorem careful_paste (hc : d.area.cursor.Within d.area.lines) (after : Bool) (count : ℕ) :
    Careful d (d.paste? after count) (d.paste after count) := by
  have hrow : d.row < d.area.lines.length := hc.row
  have hcol : d.col ≤ (d.area.line d.row).length := hc.col
  have hrows := d.area.lastRow_add_one
  unfold paste?
  refine .read hrow ?_
  by_cases hempty : d.state.unnamed.isEmpty = true
  · simp only [paste, if_pos hempty]
    exact .done rfl
  · by_cases hnewline : d.state.unnamed.getLast? = some '\n'
    · by_cases hbelow : (after && decide (d.row = d.area.lastRow)) = true
      · simp only [paste, if_neg hempty, if_pos hnewline, if_pos hbelow]
        exact careful_insert_below (TextArea.within_rowEnd hrow) List.mem_cons_self
      · have hinto : (if after then d.row + 1 else d.row) < d.area.lines.length := by
          split
          · have hnot : d.row ≠ d.area.lastRow := by simp_all
            omega
          · exact hrow
        simp only [paste, if_neg hempty, if_pos hnewline, if_neg hbelow]
        exact careful_insert_move (TextArea.within_row hinto) _
    · have hin : Location.Within d.area.lines
          ⟨d.row, if after then min (d.area.line d.row).length (d.col + 1) else d.col⟩ := by
        refine ⟨hrow, ?_⟩
        split
        · exact Nat.min_le_left _ _
        · exact hcol
      simp only [paste, if_neg hempty, if_neg hnewline]
      exact careful_insert hin _

theorem mapM_line? {row n : ℕ} (h : row + n ≤ d.area.lines.length) :
    (List.range' row n).mapM d.line? = some ((d.area.lines.drop row).take n) := by
  induction n generalizing row with
  | zero => rfl
  | succ n ih =>
    have hrow : row < d.area.lines.length := by omega
    have hread : d.line? row = some d.area.lines[row] := List.getElem?_eq_getElem hrow
    rw [List.range'_succ, List.mapM_cons, hread, ih (by omega), List.drop_eq_getElem_cons hrow,
      List.take_succ_cons]
    rfl

/-- The rows that a count takes in are there. -/
theorem rows?_eq (h : d.row < d.area.lines.length) (count : ℕ) :
    d.rows? count = some (d.rows count) := by
  have hrows := d.area.lastRow_add_one
  have hfit : d.row + (min d.area.lastRow (d.row + count - 1) + 1 - d.row) ≤ d.area.lines.length := by
    omega
  rw [rows?, mapM_line? hfit]
  rfl

theorem careful_takeSelection (hs : d.area.Sound) (remove : Bool) :
    Careful d (d.takeSelection? remove) (d.takeSelection remove) := by
  obtain ⟨hx, hy, -⟩ := Location.ordered_within hs.start hs.stop
  have hends := d.area.selection.start.ordered_not_before d.area.selection.stop
  unfold takeSelection? takeSelection
  generalize d.area.selection.start.ordered d.area.selection.stop = ends at hx hy hends
  obtain ⟨x, y⟩ := ends
  simp only
  refine .yank d.area.selectedText ?_
  cases remove with
  | true =>
    have hleft := TextArea.within_delete hx hy hends
    exact (careful_delete (d := d.yank _) hx hy).bind ((careful_move hleft).bind (.done rfl))
  | false => exact (careful_move (d := d.yank _) hx).bind (.done rfl)

theorem careful_edit (hs : d.area.Sound) (hcount : 0 < count) (e : EditName) :
    Careful d (d.edit? count e) (d.edit count e) := by
  have hrow : d.row < d.area.lines.length := hs.cursor.row
  have hcol : d.col ≤ (d.area.line d.row).length := hs.cursor.col
  have hrows := d.area.lastRow_add_one
  -- A cut goes from the cursor to a later column of its row.
  have cutting (stop : ℕ) (hl : d.col ≤ stop) (hr : stop ≤ (d.area.line d.row).length) :
      Careful d (d.cut? d.area.cursor ⟨d.row, stop⟩) (d.cut d.area.cursor ⟨d.row, stop⟩) :=
    careful_cut hs.cursor ⟨hrow, hr⟩ (Location.before_eq_false_iff.mpr (.inr ⟨rfl, hl⟩))
  obtain ⟨hfirst, hlast, -⟩ := rows_eq hrow hcount
  cases e with
  | deleteChar => exact .read hrow (cutting _ (by omega) (Nat.min_le_left _ _))
  | deleteToLineEnd => exact .read hrow (cutting _ hcol (Nat.le_refl _))
  | changeToLineEnd => exact .read hrow (cutting _ hcol (Nat.le_refl _))
  | yankLine =>
    rw [edit?, rows?_eq hrow]
    exact .done rfl
  | deleteLine =>
    rw [edit?, rows?_eq hrow]
    have hdelete : Careful (d.yank (d.rows count).2) _ _ := careful_deleteRows hfirst hlast
    exact .yank _ hdelete
  | changeLine =>
    rw [edit?, rows?_eq hrow]
    have hlast' : (d.rows count).1 < d.area.lines.length := by omega
    have hdelete : Careful (d.yank (d.rows count).2) _ _ := careful_delete_move
      (TextArea.within_row hrow) (TextArea.within_rowEnd hlast') (by simp [Location.before]; omega)
    exact .read hlast' (.yank _ hdelete)
  | pasteAfter => exact careful_paste hs.cursor true count
  | pasteBefore => exact careful_paste hs.cursor false count
  | undo => exact (Careful.done rfl).after (c := .undo) trivial rfl
  | redo => exact (Careful.done rfl).after (c := .redo) trivial rfl
  | deleteSelection => exact careful_takeSelection hs true
  | changeSelection => exact careful_takeSelection hs true
  | yankSelection => exact careful_takeSelection hs false

end Edits

section Actions
variable {d : Desk} {l : Location}

/-- With both ends in the text a selection does not fail. -/
theorem careful_selectTo (ha : (d.anchor.getD d.area.cursor).Within d.area.lines)
    (hl : l.Within d.area.lines) :
    (d.selectTo l).2 = none ∧ Careful d (d.selectTo? l) (d.selectTo l).1 := by
  have selecting {x y : Location} (hx : x.Within d.area.lines) (hy : y.Within d.area.lines) :
      Careful d (d.move? x >>= fun d => d.move? y true) ((d.move x).move y true) :=
    (careful_move hx).bind (careful_move (d := d.move x) hy true)
  unfold selectTo? selectTo
  generalize d.anchor.getD d.area.cursor = anchor at ha
  by_cases hmode : d.state.mode ≠ .visualLine
  · simp only [if_pos hmode]
    exact ⟨trivial, selecting ha hl⟩
  · by_cases hforward : (!l.before anchor) = true
    · simp only [if_neg hmode, if_pos hforward]
      exact ⟨trivial, .read hl.row
        (selecting (TextArea.within_row ha.row) (TextArea.within_rowEnd hl.row))⟩
    · have hread : d.area.lines[anchor.row]? = some (d.area.line anchor.row) :=
        Motion.getElem?_eq_lineOf ha.row
      simp only [if_neg hmode, if_neg hforward, hread]
      exact ⟨trivial, .read ha.row
        (selecting (TextArea.within_rowEnd ha.row) (TextArea.within_row hl.row))⟩

theorem careful_applyMotion (hc : d.area.cursor.Within d.area.lines)
    (ha : (d.anchor.getD d.area.cursor).Within d.area.lines) (name : String) (count : ℕ) :
    (d.applyMotion name count).2 = none ∧
      Careful d (d.applyMotion? name count) (d.applyMotion name count).1 := by
  rcases hm : Motion.read name with ⟨selects, _ | m⟩
  · simp only [applyMotion?, applyMotion, hm]
    exact ⟨trivial, .done rfl⟩
  · have hl := m.target_within hc count
    simp only [applyMotion?, applyMotion, hm, m.target?_eq hc count]
    cases selects with
    | true => exact careful_selectTo ha hl
    | false => exact ⟨rfl, careful_move hl⟩

theorem careful_enter (hc : d.area.cursor.Within d.area.lines) (e : EntryName) :
    Careful d (d.enter? e) (d.enter e).1 := by
  have hrow : d.row < d.area.lines.length := hc.row
  have hend := TextArea.within_rowEnd hrow
  have hindent : Location.Within d.area.lines ⟨d.row, Text.indent (d.area.line d.row)⟩ :=
    ⟨hrow, Text.indent_le_length _⟩
  cases e with
  | append =>
    rw [enter?, Motion.right.target?_eq hc 1]
    exact careful_move (Motion.right.target_within hc 1)
  | lineStart => exact .read hrow (careful_move hindent)
  | lineEnd => exact .read hrow (careful_move hend)
  | openBelow => exact .read hrow (careful_insert_below hend List.mem_cons_self)
  | openAbove => exact careful_insert_move (TextArea.within_row hrow) _
  | visual =>
    exact .anchored _ (careful_move (d := { d with anchor := some d.area.cursor }) hc)
  | visualLine =>
    have hstart : Location.Within d.area.lines ⟨d.row, 0⟩ := TextArea.within_row hrow
    have hselect := careful_selectTo (d := { d with anchor := some ⟨d.row, 0⟩ }) hstart hend
    exact .read hrow (.anchored _ hselect.2)
  | normal => exact .anchored none (careful_move (d := { d with anchor := none }) hc)

theorem findForward?_eq {ls : List Text} (h : 0 < ls.length) (pattern : Text) (l : Location) :
    findForward? ls pattern l = some (findForward ls pattern l) := by
  have hread (step : ℕ) : ls[(l.row + step) % ls.length]? = some (ls.getD ((l.row + step) % ls.length) []) :=
    Motion.getElem?_eq_lineOf (Nat.mod_lt _ h)
  simp only [findForward?, hread]
  exact List.findSomeM?_pure

theorem findBackward?_eq {ls : List Text} (h : 0 < ls.length) (pattern : Text) (l : Location) :
    findBackward? ls pattern l = some (findBackward ls pattern l) := by
  have hread (step : ℕ) : ls[(l.row + ls.length - step) % ls.length]?
      = some (ls.getD ((l.row + ls.length - step) % ls.length) []) :=
    Motion.getElem?_eq_lineOf (Nat.mod_lt _ h)
  simp only [findBackward?, hread]
  exact List.findSomeM?_pure

/-- What a search finds is in the text. -/
theorem careful_find (hc : d.area.cursor.Within d.area.lines) {pattern : String} (hp : pattern ≠ "")
    (direction : Direction) : Careful d (d.find? pattern direction) (d.find pattern direction).1 := by
  have hpos : 0 < d.area.lines.length := Nat.lt_of_le_of_lt (Nat.zero_le _) hc.row
  have hp : pattern.toList ≠ [] := fun h => hp (String.toList_inj.mp h)
  have going {found : Option Location} (hfound : ∀ l, found = some l → l.Within d.area.lines) :
      Careful d (found.elim (some d) fun l => d.move? l) (found.elim d d.move) := by
    cases found with
    | none => exact .done rfl
    | some l => exact careful_move (hfound l rfl)
  rw [find_moves]
  cases direction with
  | forward =>
    rw [find_forward, find?, findForward?_eq hpos]
    exact going fun l hl => (findForward_eq_some hp hc.row hl).1.within hp
  | backward =>
    rw [find_backward, find?, findBackward?_eq hpos]
    exact going fun l hl => ((finds_backward hp hc.row).first l hl).1.within hp

theorem careful_applySearch (hc : d.area.cursor.Within d.area.lines) (name pattern : Option String) :
    Careful d (d.applySearch? name pattern) (d.applySearch name pattern) := by
  unfold applySearch? applySearch
  cases name.bind Direction.ofSearch? with
  | some direction =>
    have hsame : (if d.asks then d.say [.request d.state.search.direction] else d).area = d.area := by
      split <;> rfl
    exact .done hsame
  | none =>
    cases hp : pattern.filter (· ≠ "") with
    | none => exact .done rfl
    | some p =>
      have hkept := (Option.filter_eq_some_iff.mp hp).2
      exact careful_find hc (of_decide_eq_true hkept) _

theorem careful_applyModeChange (hc : d.area.cursor.Within d.area.lines) (name : String) :
    (d.applyModeChange name).2 = none ∧
      Careful d (d.applyModeChange? name) (d.applyModeChange name).1 := by
  unfold applyModeChange? applyModeChange
  cases EntryName.names.lookup name with
  | none => exact ⟨rfl, .done rfl⟩
  | some e => exact ⟨enter_failure d e, careful_enter hc e⟩

theorem careful_applyEdit (hs : d.area.Sound) (name : String) {count : ℕ} (hcount : 0 < count) :
    d.applyEdit? name count = some (d.applyEdit name count) ∧
      ∃ cs, (d.applyEdit name count).1.area = d.area.obeyAll cs ∧ d.area.AllWithin cs := by
  unfold applyEdit? applyEdit
  cases EditName.names.lookup name with
  | none => exact ⟨rfl, [], rfl, trivial⟩
  | some e =>
    simp only
    cases d.refusal? count e with
    | some f =>
      have hread : d.line? d.row = some (d.area.line d.row) :=
        Motion.getElem?_eq_lineOf hs.cursor.row
      rw [hread]
      exact ⟨rfl, [], rfl, trivial⟩
    | none =>
      obtain ⟨hgoes, hcalls⟩ := careful_edit hs hcount e
      rw [hgoes]
      exact ⟨rfl, hcalls⟩

theorem area_finish (a : Action) (r : Desk × Option Failure) :
    (finish a r).1.area = { r.1.area with readOnly := (finish a r).1.area.readOnly } := by
  obtain ⟨d, f⟩ := r
  cases f <;> rfl

theorem apply_eq_finish (d : Desk) (a : Action) :
    d.apply a = (((d.begun a).perform? a).map (finish a)).getD (d, none) := by
  unfold apply begun
  split <;> rename_i h <;> rw [h] <;> rfl

/-- What a careful desk makes of an action of each kind: it leaves all as it is, or comes to what carrying
the action out comes to. -/
theorem careful_perform (hs : d.area.Sound) (ha : (d.anchor.getD d.area.cursor).Within d.area.lines)
    (a : Action) :
    (d.begun a).perform? a = none ∧ d.carryOut? a = some (d, none) ∨
      ∃ r cs, (d.begun a).perform? a = some r ∧ d.carryOut? a = some (finish a r) ∧
        r.1.area = d.area.obeyAll cs ∧ d.area.AllWithin cs := by
  let name := a.name.getD ""
  cases hk : a.kind with
  | none => exact .inl (by simp [perform?, carryOut?, hk])
  | register => exact .inl (by simp [perform?, carryOut?, hk])
  | motion =>
    obtain ⟨hnone, hgoes, cs, hcalls⟩ :=
      careful_applyMotion (d := d.begun a) hs.cursor ha name a.count
    refine .inr ⟨_, cs, perform?_motion hk, ?_, hcalls⟩
    simp only [carryOut?, hk, name, hgoes, Option.map_some, ← hnone]
  | modeChange =>
    obtain ⟨hnone, hgoes, cs, hcalls⟩ := careful_applyModeChange (d := d.begun a) hs.cursor name
    refine .inr ⟨_, cs, perform?_modeChange hk, ?_, hcalls⟩
    simp only [carryOut?, hk, name, hgoes, Option.map_some, ← hnone]
  | edit =>
    obtain ⟨hgoes, cs, hcalls⟩ := careful_applyEdit (d := d.begun a) hs name a.count_pos
    refine .inr ⟨_, cs, perform?_edit hk, ?_, hcalls⟩
    simp only [carryOut?, hk, name, hgoes, Option.map_some]
  | search =>
    obtain ⟨hgoes, cs, hcalls⟩ := careful_applySearch (d := d.begun a) hs.cursor a.name a.pattern
    refine .inr ⟨_, cs, perform?_search hk, ?_, hcalls⟩
    simp only [carryOut?, hk, hgoes, Option.map_some]

/-- With the cursor, the selection and the anchor in the text, an action stays in the text. To carry it
out carefully is to carry it out, so that each row which it reads is there, also where it reads the text
that an edit has left; and each call names only locations of the text that the calls before it have
left. -/
theorem apply_stays_inside (d : Desk) (hs : d.area.Sound)
    (hanchor : ∀ l, d.anchor = some l → l.Within d.area.lines) (a : Action) :
    let now := d.apply a
    d.carryOut? a = some now ∧ now.2 ≠ some .noLine ∧
    ∃ cs, now.1.area = { d.area.obeyAll cs with readOnly := now.1.area.readOnly } ∧
      now.1.area.calls = d.area.calls ++ cs ∧ d.area.AllWithin cs := by
  intro now
  have hnow : now = (((d.begun a).perform? a).map (finish a)).getD (d, none) := d.apply_eq_finish a
  have hstart : (d.anchor.getD d.area.cursor).Within d.area.lines := by
    cases ha : d.anchor with
    | none => exact hs.cursor
    | some l => exact hanchor l ha
  have hthere : now.2 ≠ some .noLine := by
    intro hfails
    cases (apply_fails_iff hs).mp hfails with
    | anchor kind motion mode anchor gone => exact absurd (hanchor _ anchor).row (Nat.not_lt.mpr gone)
  clear_value now
  rcases careful_perform hs hstart a with ⟨hp, hrun⟩ | ⟨r, cs, hp, hrun, harea, hcs⟩
  · rw [hp] at hnow
    obtain rfl : now = (d, none) := hnow
    exact ⟨hrun, hthere, [], rfl, (List.append_nil _).symm, trivial⟩
  · rw [hp] at hnow
    obtain rfl : now = finish a r := hnow
    have hall := area_finish a r
    rw [harea] at hall
    refine ⟨hrun, hthere, cs, hall, ?_, hcs⟩
    rw [hall]
    exact d.area.calls_obeyAll cs

/-- The last of three rows is deleted with the newline before it, and the row above, which is the last one
then, is read. -/
theorem delete_last_row_stays_inside :
    let d : Desk :=
      { state := {}, area := { text := ['a', '\n', ' ', 'b', '\n', 'c'], cursor := ⟨2, 1⟩ },
        anchor := some ⟨0, 1⟩ }
    let a : Action := { kind := .edit, name := some "delete-line" }
    let cs : List Call := [.delete ⟨1, 2⟩ ⟨2, 1⟩, .move ⟨1, 1⟩ false]
    d.area.Sound ∧ (∀ l, d.anchor = some l → l.Within d.area.lines) ∧
    d.carryOut? a = some (d.apply a) ∧ (d.apply a).1.area.calls = cs ∧ d.area.AllWithin cs := by
  intro d a cs
  have hs : d.area.Sound := ⟨by decide, by decide, by decide⟩
  have hanchor : ∀ l, d.anchor = some l → l.Within d.area.lines := by
    rintro l ⟨⟩
    decide
  obtain ⟨hrun, -, cs', -, hcalls, hinside⟩ := apply_stays_inside d hs hanchor a
  have hlog : (d.apply a).1.area.calls = cs := by decide +kernel
  obtain rfl : cs' = cs := hcalls.symm.trans hlog
  exact ⟨hs, hanchor, hrun, hlog, hinside⟩

/-- A careful desk stops where the anchor is in a row that is gone. -/
example :
    let d : Desk :=
      { state := { mode := .visualLine }, area := { text := ['a'] }, anchor := some ⟨1, 0⟩ }
    (d.carryOut? { kind := .motion, name := some "select-up" }).isNone = true := by
  decide +kernel

end Actions

end ModalEditing.Desk
