import ModalEditing.Proofs.Surface.Selecting

namespace ModalEditing

namespace Desk
variable {d : Desk} {a : Action}

/-- What is removed from the cursor's row on has no newline, so that it can always be put back. -/
theorem put_back_of_cut {e : EditName} (hc : d.area.cursor.Within d.area.lines) (hk : a.kind = .edit)
    (hn : EditName.names.lookup (a.name.getD "") = some e) (hr : d.refusal? a.count e = none)
    {stop : ℕ} (hl : d.col ≤ stop) (hs : stop ≤ (d.area.line d.row).length)
    (he : (d.begun a).edit a.count e = (d.begun a).cut d.area.cursor ⟨d.row, stop⟩) :
    ∃ d', d.apply a = (d', none) ∧ d'.HasCut d.area.text ∧
      d'.state.unnamed.length = stop - d.col ∧
      (d'.apply pasteBefore).2 = none ∧ (d'.apply pasteBefore).1.area.text = d.area.text := by
  obtain ⟨p, c, u, ht, hlen, hno, hcut⟩ := removed_cut (d := d.begun a) hc hl hs
  have ht : d.area.text = p ++ c ++ u := ht
  obtain ⟨d', ha, hremoved⟩ := Removed.of_edit hk hn hr (he ▸ hcut)
  obtain ⟨hnone, hiff⟩ := hremoved.put_back
  have hback := hiff.mpr fun hlast => hno (List.mem_of_getLast? hlast.1)
  refine ⟨d', ha, ht ▸ hremoved.hasCut, ?_, hnone, hback.trans ht.symm⟩
  rw [hremoved.register]
  exact hlen

/-- How many characters a deletion takes from the cursor on: those asked for, or all of the row. -/
def taken (d : Desk) (a : Action) : ℕ :=
  let rest := (d.area.line d.row).length - d.col
  if a.name = some "delete-char" then min a.count rest else rest

theorem put_back_of_delete (hc : d.area.cursor.Within d.area.lines) (hk : a.kind = .edit)
    (hn : a.name = some "delete-char" ∨ a.name = some "delete-to-line-end") :
    ∃ d', d.apply a = (d', none) ∧ d'.HasCut d.area.text ∧
      d'.state.unnamed.length = d.taken a ∧
      (d'.apply pasteBefore).2 = none ∧ (d'.apply pasteBefore).1.area.text = d.area.text := by
  have hcol : d.col ≤ (d.area.line d.row).length := hc.col
  rcases hn with hn | hn
  · have hl : d.col ≤ min (d.area.line d.row).length (d.col + a.count) := by omega
    have htaken : min (d.area.line d.row).length (d.col + a.count) - d.col = d.taken a := by
      rw [taken, if_pos hn]
      omega
    rw [← htaken]
    exact put_back_of_cut (e := .deleteChar) hc hk (by rw [hn]; rfl) rfl hl (Nat.min_le_left _ _) rfl
  · have htaken : (d.area.line d.row).length - d.col = d.taken a := by
      rw [taken, if_neg (by simp [hn])]
    rw [← htaken]
    exact put_back_of_cut (e := .deleteToLineEnd) hc hk (by rw [hn]; rfl) rfl hcol (Nat.le_refl _) rfl

end Desk

namespace Editor

/-- In every text and at every cursor in it, what an edit removes from a row is put back where it was,
and so is any selection made by keys, except one that ends in a newline and begins further along a row:
it comes back as rows before its own. -/
theorem cut_put_back (e : Editor) (hc : e.desk.area.cursor.Within e.desk.area.lines) :
    (∀ a : Action, a.kind = .edit →
      a.name = some "delete-char" ∨ a.name = some "delete-to-line-end" →
      ∃ cut, e.desk.apply a = (cut, none) ∧ cut.HasCut e.desk.area.text ∧
        cut.state.unnamed.length = e.desk.taken a ∧
        let back := cut.apply Desk.pasteBefore
        back.2 = none ∧ back.1.area.text = e.desk.area.text) ∧
    (e.Waiting → ∀ (ms : List (String × String)) (ps : List Press),
      (∀ m ∈ ms, m ∈ Keymap.visualMotions) →
      tokens ps = ["v"] ++ (ms.flatMap fun m => Binding.sequenceOf m.1) ++ ["d"] →
      ∃ e', e.pressAll ps = .ok e' ∧ e'.desk.HasCut e.desk.area.text ∧
        let back := e'.desk.apply Desk.pasteBefore
        back.2 = none ∧
        (back.1.area.text = e.desk.area.text ↔
          ¬ (e'.state.unnamed.getLast? = some '\n' ∧ e'.desk.area.cursor.col ≠ 0))) := by
  constructor
  · intro a hk hn
    exact Desk.put_back_of_delete hc hk hn
  · intro h ms ps hms hps
    obtain ⟨before, last, rfl, hbefore, hlast⟩ := List.map_eq_append_iff.mp hps
    obtain ⟨first, middle, rfl, hfirst, hmiddle⟩ := List.map_eq_append_iff.mp hbefore
    obtain ⟨v, rfl, hv⟩ : ∃ v, first = [v] ∧ v.toKey.token = "v" := by simpa using hfirst
    obtain ⟨x, rfl, hx⟩ : ∃ x, last = [x] ∧ x.toKey.token = "d" := by simpa using hlast
    -- The text stays as it was up to the last key, which parts it.
    obtain ⟨e₁, a₁, hpress₁, hsel₁, hidle₁⟩ := h.press_visual hv
    obtain ⟨e₂, hpress₂, hsel₂, hidle₂⟩ := hsel₁.motions hidle₁ hms hmiddle
    obtain ⟨e', a, hpress, p, c, u, ht, hremoved⟩ := hsel₂.press_delete hidle₂ hx
    have hall : e.pressAll ([v] ++ middle ++ [x]) = .ok e' := by
      rw [List.append_assoc, List.singleton_append, pressAll_cons hpress₁, pressAll_append hpress₂,
        pressAll_cons hpress]
      rfl
    obtain ⟨hnone, hiff⟩ := hremoved.put_back
    rw [← ht, ← hremoved.register] at hiff
    exact ⟨e', hall, ht ▸ hremoved.hasCut, hnone, hiff⟩

def onTwoRows : Editor :=
  { desk := { state := { enabled := true },
              area := { text := ['a', 'b', '\n', 'c'], cursor := ⟨0, 1⟩ } },
    table := .builtIn }

def typing (keys : List String) : List Press := keys.map fun k => { key := k, character := some k }

theorem waiting_onTwoRows : onTwoRows.Waiting := ⟨rfl, rfl, ⟨rfl, rfl⟩, rfl, rfl⟩

theorem within_onTwoRows : onTwoRows.desk.area.cursor.Within onTwoRows.desk.area.lines :=
  ⟨by decide, by decide⟩

/-- Five characters are more than the row has; the selection goes on in the next row. -/
theorem put_back_on_two_rows :
    (∃ cut, onTwoRows.desk.apply { kind := .edit, name := some "delete-char", count := 5 } = (cut, none) ∧
      cut.state.unnamed.length = 1 ∧
      (cut.apply Desk.pasteBefore).1.area.text = ['a', 'b', '\n', 'c']) ∧
    ∃ e', onTwoRows.pressAll (typing ["v", "j", "d"]) = .ok e' ∧
      e'.state.unnamed = ['b', '\n', 'c'] ∧
      (e'.desk.apply Desk.pasteBefore).1.area.text = ['a', 'b', '\n', 'c'] := by
  obtain ⟨hedit, hkeys⟩ := cut_put_back onTwoRows within_onTwoRows
  constructor
  · obtain ⟨cut, happly, -, hlength, -, hback⟩ :=
      hedit { kind := .edit, name := some "delete-char", count := 5 } rfl (.inl rfl)
    exact ⟨cut, happly, hlength, hback⟩
  · have hcut : (onTwoRows.pressAll (typing ["v", "j", "d"])).toOption.map (fun e => e.state.unnamed)
        = some ['b', '\n', 'c'] := by
      decide +kernel
    obtain ⟨e', hall, -, -, hiff⟩ := hkeys waiting_onTwoRows [("j", "select-down")]
      (typing ["v", "j", "d"]) (by decide) (by decide +kernel)
    rw [hall] at hcut
    have hcut : e'.state.unnamed = ['b', '\n', 'c'] := Option.some.inj hcut
    refine ⟨e', hall, hcut, hiff.mpr ?_⟩
    rw [hcut]
    rintro ⟨hlast, -⟩
    exact absurd hlast (by decide)

/-- A selection from the `b` to the start of the next row ends in a newline, and comes back as a row
before its own. -/
theorem newline_put_before_row :
    onTwoRows.Waiting ∧ onTwoRows.desk.area.cursor.Within onTwoRows.desk.area.lines ∧
    ("j", "select-down") ∈ Keymap.visualMotions ∧ ("0", "select-line-home") ∈ Keymap.visualMotions ∧
    ∃ e', onTwoRows.pressAll (typing ["v", "j", "0", "d"]) = .ok e' ∧
      e'.state.unnamed = ['b', '\n'] ∧ e'.desk.area.text = ['a', 'c'] ∧
      (e'.desk.apply Desk.pasteBefore).1.area.text = ['b', '\n', 'a', 'c'] ∧
      (e'.desk.apply Desk.pasteBefore).1.area.text ≠ onTwoRows.desk.area.text := by
  have hall : (onTwoRows.pressAll (typing ["v", "j", "0", "d"])).toOption.map
      (fun e => (e.state.unnamed, e.desk.area.text, (e.desk.apply Desk.pasteBefore).1.area.text))
        = some (['b', '\n'], ['a', 'c'], ['b', '\n', 'a', 'c']) := by
    decide +kernel
  refine ⟨waiting_onTwoRows, within_onTwoRows, by decide, by decide, ?_⟩
  cases hp : onTwoRows.pressAll (typing ["v", "j", "0", "d"]) with
  | error f =>
    rw [hp] at hall
    exact nomatch hall
  | ok e' =>
    rw [hp] at hall
    obtain ⟨hcut, htext, hback⟩ : e'.state.unnamed = ['b', '\n'] ∧ e'.desk.area.text = ['a', 'c'] ∧
        (e'.desk.apply Desk.pasteBefore).1.area.text = ['b', '\n', 'a', 'c'] := by
      simpa [Except.toOption] using hall
    refine ⟨e', rfl, hcut, htext, hback, ?_⟩
    rw [hback]
    decide

end Editor
end ModalEditing
