import ModalEditing.Proofs.Surface.Taking
import ModalEditing.Proofs.Surface.WholeRows

namespace ModalEditing

/-- Each row takes its characters and a newline, but for the last. -/
theorem Text.length_joinLines (ls : List Text) (h : ls ≠ []) :
    (joinLines ls).length + 1 = (ls.map fun l => l.length + 1).sum := by
  fun_induction joinLines ls with
  | case1 => exact absurd rfl h
  | case2 l => simp
  | case3 l ls hls ih =>
    have hls : ls ≠ [] := fun hnil => hls hnil
    have hrest := ih hls
    simp only [List.length_append, List.length_cons, List.map_cons, List.sum_cons]
    omega

/-- An empty row among others makes a longer text. -/
theorem Text.joinLines_empty_row {xs ys : List Text} :
    joinLines (xs ++ [] :: ys) = joinLines (xs ++ ys) ↔ xs = [] ∧ ys = [] := by
  constructor
  · intro h
    by_contra hne
    have hrows : xs ++ ys ≠ [] := by simpa using hne
    have hwith := length_joinLines (xs ++ [] :: ys) (by simp)
    have hwithout := length_joinLines (xs ++ ys) hrows
    rw [h] at hwith
    simp only [List.map_append, List.map_cons, List.sum_append, List.sum_cons, List.length_nil]
      at hwith hwithout
    omega
  · rintro ⟨rfl, rfl⟩
    rfl

namespace Keymap

theorem exists_down : ∃ b ∈ builtIn.bucket .visual, b.sequence = ["j"] ∧ b.Moves true .down := by
  obtain ⟨b, hb, hs, hk, hlen, hd, ha⟩ : ∃ b ∈ builtIn.bucket .visual, b.sequence = ["j"] ∧
      b.kind = .motion ∧ b.key.toList.length = 1 ∧ (isDigitToken b.key = true → b.key = "0") ∧
      Motion.read b.action = (true, some .down) := by
    decide +kernel
  exact ⟨b, hb, hs, hk, hlen, hd, ha⟩

end Keymap

namespace Desk
variable {d : Desk} {row last : ℕ}

/-- The removal of whole lines leaves an empty row in their place. -/
theorem text_takeRows (hrow : row < d.area.lines.length) (hlast : last < d.area.lines.length)
    (hsel : d.area.selection = wholeRows d.area.lines row last) :
    (d.takeSelection true).area.text = Text.joinLines
      (d.area.lines.take (min row last) ++ [] :: d.area.lines.drop (max row last + 1)) := by
  have hmin : min row last < d.area.lines.length := by omega
  have hmax : max row last < d.area.lines.length := by omega
  have hlines := TextArea.lines_delete (TextArea.within_row hmin) (TextArea.within_rowEnd hmax)
    (by simp [Location.before])
  rw [List.take_zero, List.drop_length, List.nil_append] at hlines
  rw [takeSelection, hsel, wholeRows_ordered]
  exact TextArea.text_of_lines hlines

end Desk

namespace Editor
variable {e : Editor} {t : Text} {row : ℕ} {p : Press}

/-- The key that leads down takes one more row into the selection, as often as there is one. -/
theorem Covering.downs (h : Covering t row e) {n : ℕ}
    (hn : e.desk.area.cursor.row + n < (Text.lines t).length) {ps : List Press}
    (hps : tokens ps = List.replicate n "j") :
    ∃ e', e.pressAll ps = .ok e' ∧ Covering t row e' ∧
      e'.desk.area.cursor.row = e.desk.area.cursor.row + n := by
  induction n generalizing e ps with
  | zero =>
    obtain rfl : ps = [] := by simpa [tokens] using hps
    exact ⟨e, rfl, h, rfl⟩
  | succ n ih =>
    obtain ⟨p, rest, rfl, hp, hrest⟩ : ∃ p rest, ps = p :: rest ∧ p.toKey.token = "j" ∧
        tokens rest = List.replicate n "j" := by
      simpa [tokens, List.map_eq_cons_iff, List.replicate_succ] using hps
    obtain ⟨b, hb, hs, hm⟩ := Keymap.exists_down
    have hpress₁ : tokens [p] = ["j"] := congrArg (fun key => [key]) hp
    obtain ⟨e₁, hpress, hcovering, hrow⟩ := h.motion hb hm (hpress₁.trans hs.symm)
    have hrow : e₁.desk.area.cursor.row = e.desk.area.cursor.row + 1 := by
      rw [hrow]
      show min ((Text.lines t).length - 1) (e.desk.area.cursor.row + 1) = _
      omega
    obtain ⟨e', hpress', hcovering', hrow'⟩ := ih hcovering (by omega) hrest
    exact ⟨e', (pressAll_append hpress rest).trans hpress', hcovering', by omega⟩

/-- The key that removes a selection of whole lines leaves an empty row in their place. -/
theorem Covering.press_delete (h : Covering t row e) (hp : p.toKey.token = "d") :
    ∃ e' a, e.press p = (e', .ok a) ∧
      e'.state.unnamed = Text.joinLines (rowsBetween (Text.lines t) row e.desk.area.cursor.row) ∧
      e'.desk.area.text = Text.joinLines ((Text.lines t).take (min row e.desk.area.cursor.row)
        ++ [] :: (Text.lines t).drop (max row e.desk.area.cursor.row + 1)) := by
  obtain ⟨e', a, hpress, -, hregister, harea⟩ := h.press_take true hp
  obtain ⟨-, rfl, -, hrow, hlast, hselection, -⟩ := h
  refine ⟨e', a, hpress, hregister, ?_⟩
  rw [harea]
  exact Desk.text_takeRows hrow hlast hselection

/-- The deletion of lines leaves no row in their place. -/
theorem apply_deleteLine {a : Action} (hc : e.desk.area.cursor.row < e.desk.area.lines.length)
    (ha : a.IsEdit "delete-line") :
    ∃ e', e.apply a = (e', none) ∧
      e'.state.unnamed = Text.joinLines (e.desk.area.affected a.count) ++ ['\n'] ∧
      e'.desk.area.text = Text.joinLines (e.desk.area.lines.take e.desk.area.cursor.row
        ++ e.desk.area.lines.drop (e.desk.area.cursor.row + a.count)) := by
  obtain ⟨hk, hn⟩ := ha
  obtain ⟨hfirst, hlast, hdrop, htext⟩ := (e.desk.begun a).rows_eq hc a.count_pos
  obtain ⟨os, happly⟩ := Desk.apply_edit (d := e.desk) (e := .deleteLine) hk (by rw [hn]; rfl) rfl
  refine ⟨{ e with desk := (e.desk.apply a).1 }, ?_, ?_, ?_⟩
  · rw [apply, happly]
  · rw [happly]
    have hstate := Desk.state_deleteRows ((e.desk.begun a).yank ((e.desk.begun a).rows a.count).2)
      (e.desk.begun a).row ((e.desk.begun a).rows a.count).1
    exact (congrArg State.unnamed hstate).trans ((Desk.unnamed_yank _ _).trans htext)
  · rw [happly]
    have hleft := Desk.text_deleteRows (d := (e.desk.begun a).yank ((e.desk.begun a).rows a.count).2)
      hfirst hlast
    exact hleft.trans (congrArg (fun ls => Text.joinLines (e.desk.area.lines.take _ ++ ls)) hdrop)

/-- Both deletions take the same rows and leave the others as they were. But where a selection of whole
lines is removed an empty row is left, and the register is without the last newline; so the texts are
the same just where no other row is left. -/
theorem rows_removed_two_ways (e : Editor) (h : e.Waiting)
    (hc : e.desk.area.cursor.Within e.desk.area.lines) (n : ℕ) (hn : 0 < n)
    (hrows : e.desk.area.cursor.row + n ≤ e.desk.area.lines.length) (js : List Press)
    (hjs : tokens js = List.replicate (n - 1) "j") (v d : Press) (hv : v.toKey.token = "V")
    (hd : d.toKey.token = "d") (a : Action) (ha : a.IsEdit "delete-line") (hcount : a.count = n) :
    ∃ cut deleted, e.pressAll (v :: js ++ [d]) = .ok cut ∧ e.apply a = (deleted, none) ∧
      let before := e.desk.area.lines.take e.desk.area.cursor.row
      let after := e.desk.area.lines.drop (e.desk.area.cursor.row + n)
      cut.desk.area.text = Text.joinLines (before ++ [] :: after) ∧
      deleted.desk.area.text = Text.joinLines (before ++ after) ∧
      cut.state.unnamed = Text.joinLines (e.desk.area.affected n) ∧
      deleted.state.unnamed = cut.state.unnamed ++ ['\n'] ∧
      (cut.desk.area.text = deleted.desk.area.text ↔ before = [] ∧ after = []) := by
  subst hcount
  obtain ⟨begun, b, hbegin, hcovering, hrow⟩ := (h.walking hc).begin_rows hv
  obtain ⟨selected, hselect, hcovering', hrow'⟩ := hcovering.downs
    (by rw [hrow]; exact Nat.lt_of_lt_of_le (by omega) hrows) hjs
  obtain ⟨cut, b', hcut, hregister, htext⟩ := hcovering'.press_delete hd
  obtain ⟨deleted, hdelete, hregister', htext'⟩ := apply_deleteLine hc.row ha
  have hall : e.pressAll (v :: js ++ [d]) = .ok cut := by
    have hselected : e.pressAll (v :: js) = .ok selected := (pressAll_cons hbegin js).trans hselect
    exact (pressAll_append hselected [d]).trans (pressAll_cons hcut [])
  -- The last row selected is the last of those that the count takes in.
  have hlast : selected.desk.area.cursor.row = e.desk.area.cursor.row + (a.count - 1) := by
    rw [hrow', hrow]
  have hmin : min e.desk.area.cursor.row selected.desk.area.cursor.row = e.desk.area.cursor.row := by
    omega
  have hmax : max e.desk.area.cursor.row selected.desk.area.cursor.row + 1
      = e.desk.area.cursor.row + a.count := by
    omega
  have htaken : rowsBetween e.desk.area.lines e.desk.area.cursor.row selected.desk.area.cursor.row
      = e.desk.area.affected a.count := by
    rw [rowsBetween, hmin, hmax, List.drop_take, Nat.add_sub_cancel_left]
    rfl
  rw [hmin, hmax] at htext
  have hregister : cut.state.unnamed = Text.joinLines (e.desk.area.affected a.count) :=
    hregister.trans (congrArg Text.joinLines htaken)
  refine ⟨cut, deleted, hall, hdelete, htext, htext', hregister, ?_, ?_⟩
  · rw [hregister', hregister]
  · rw [htext, htext']
    exact Text.joinLines_empty_row

def deleteLines (n : ℕ) (hn : 0 < n) : Action :=
  { kind := .edit, name := some "delete-line", count := n, count_pos := hn }

/-- Here the two rows are all there are. -/
theorem both_rows_removed_two_ways :
    onTwoRows.Waiting ∧ onTwoRows.desk.area.cursor.Within onTwoRows.desk.area.lines ∧
    ∃ cut deleted, onTwoRows.pressAll (typing ["V", "j", "d"]) = .ok cut ∧
      onTwoRows.apply (deleteLines 2 (by decide)) = (deleted, none) ∧
      cut.desk.area.text = [] ∧ deleted.desk.area.text = [] ∧
      cut.state.unnamed = ['a', 'b', '\n', 'c'] ∧
      deleted.state.unnamed = ['a', 'b', '\n', 'c', '\n'] := by
  obtain ⟨cut, deleted, hcut, hdelete, htext, htext', hregister, hregister', -⟩ :=
    rows_removed_two_ways onTwoRows waiting_onTwoRows within_onTwoRows 2 (by decide) (by decide)
      (typing ["j"]) (by decide +kernel) { key := "V", character := some "V" }
      { key := "d", character := some "d" } (by decide +kernel) (by decide +kernel)
      (deleteLines 2 (by decide)) ⟨rfl, rfl⟩ rfl
  exact ⟨waiting_onTwoRows, within_onTwoRows, cut, deleted, hcut, hdelete, htext, htext', hregister,
    hregister'.trans (congrArg (· ++ ['\n']) hregister)⟩

/-- One row of two is taken: the selection leaves an empty row and no newline in the register. -/
theorem first_row_removed_two_ways :
    onTwoRows.Waiting ∧ onTwoRows.desk.area.cursor.Within onTwoRows.desk.area.lines ∧
    1 < onTwoRows.desk.area.lines.length ∧
    ∃ cut deleted, onTwoRows.pressAll (typing ["V", "d"]) = .ok cut ∧
      onTwoRows.apply (deleteLines 1 (by decide)) = (deleted, none) ∧
      cut.desk.area.text ≠ deleted.desk.area.text ∧ cut.state.unnamed ≠ deleted.state.unnamed := by
  have hcut : (onTwoRows.pressAll (typing ["V", "d"])).toOption.map
      (fun e => (e.desk.area.text, e.state.unnamed)) = some (['\n', 'c'], ['a', 'b']) := by
    decide +kernel
  have hdelete : (fun r => (r.1.desk.area.text, r.1.state.unnamed, r.2))
      (onTwoRows.apply (deleteLines 1 (by decide))) = (['c'], ['a', 'b', '\n'], none) := by
    decide +kernel
  obtain ⟨cut, hall, hparts⟩ := Option.map_eq_some_iff.mp hcut
  obtain ⟨htext, hregister⟩ := Prod.mk.inj hparts
  obtain ⟨htext', hparts'⟩ := Prod.mk.inj hdelete
  obtain ⟨hregister', hnone⟩ := Prod.mk.inj hparts'
  refine ⟨waiting_onTwoRows, within_onTwoRows, by decide, cut,
    (onTwoRows.apply (deleteLines 1 (by decide))).1, ?_, Prod.ext rfl hnone, ?_, ?_⟩
  · cases hp : onTwoRows.pressAll (typing ["V", "d"]) with
    | error f =>
      rw [hp] at hall
      cases hall
    | ok e' =>
      rw [hp] at hall
      exact congrArg Except.ok (Option.some.inj hall)
  · rw [htext, htext']
    decide
  · rw [hregister, hregister']
    decide

end Editor
end ModalEditing
