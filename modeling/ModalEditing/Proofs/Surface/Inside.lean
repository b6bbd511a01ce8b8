import ModalEditing.Proofs.Surface.Asking
import ModalEditing.Proofs.Surface.Rows

namespace ModalEditing

/-- The locations that the call names are in these lines. -/
def Call.Within (ls : List Text) : Call → Prop
  | .move l _ => l.Within ls
  | .moveOutside _ _ _ => False
  | .range x y | .delete x y => x.Within ls ∧ y.Within ls
  | .insert _ l => l.Within ls
  | .undo | .redo | .type _ | .focus => True

namespace TextArea
variable {a : TextArea} {x y l : Location} {cs cs' : List Call}

/-- Each call names only locations of the text that the calls before it have left. -/
def AllWithin (a : TextArea) : List Call → Prop
  | [] => True
  | c :: cs => c.Within a.lines ∧ (a.obey c).AllWithin cs

theorem AllWithin.append (h : a.AllWithin cs) (h' : (a.obeyAll cs).AllWithin cs') :
    a.AllWithin (cs ++ cs') := by
  induction cs generalizing a with
  | nil => exact h'
  | cons c cs ih => exact ⟨h.1, ih h.2 h'⟩

/-- The earlier end of a deletion stays in the text. -/
theorem within_delete (hx : x.Within a.lines) (hy : y.Within a.lines) (h : y.before x = false) :
    x.Within (a.delete x y).lines := by
  obtain ⟨p, c, u, -, rfl, -, ht⟩ := exists_text_delete hx hy h
  rw [lines, ht]
  exact (Location.endOf_within p u).1

theorem exists_text_insert (hl : l.Within a.lines) (t : Text) :
    ∃ p u, a.text = p ++ u ∧ l = Location.endOf p ∧ (a.insert t l).text = p ++ t ++ u := by
  obtain ⟨p, c, u, ht, rfl, -⟩ := Location.exists_parts hl hl (Nat.le_refl _)
  rw [List.append_assoc] at ht
  exact ⟨p, c ++ u, ht, rfl, text_insert_endOf ht t⟩

theorem within_insert (hl : l.Within a.lines) (t : Text) : l.Within (a.insert t l).lines := by
  obtain ⟨p, u, -, rfl, ht⟩ := exists_text_insert hl t
  rw [lines, ht, List.append_assoc]
  exact (Location.endOf_within p (t ++ u)).1

/-- What is put in with a newline makes one more row at least. -/
theorem length_lines_insert (hl : l.Within a.lines) {t : Text} (ht : '\n' ∈ t) :
    a.lines.length < (a.insert t l).lines.length := by
  obtain ⟨p, u, htext, rfl, hinsert⟩ := exists_text_insert hl t
  have hpos := List.count_pos_iff.mpr ht
  rw [lines, lines, hinsert, htext, Text.length_lines, Text.length_lines]
  simp only [List.count_append]
  omega

end TextArea
end ModalEditing
