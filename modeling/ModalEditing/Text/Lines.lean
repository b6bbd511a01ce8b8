import ModalEditing.Text.Blank

namespace ModalEditing.Text

/-- Lines are parted by the newline alone, so that every text has at least one. -/
def lines : Text → List Text
  | [] => [[]]
  | '\n' :: t => [] :: lines t
  | c :: t =>
    match lines t with
    | [] => [[c]]
    | l :: ls => (c :: l) :: ls

def joinLines : List Text → Text
  | [] => []
  | [l] => l
  | l :: ls => l ++ '\n' :: joinLines ls

theorem lines_ne_nil (t : Text) : lines t ≠ [] := by
  fun_cases lines t <;> simp_all

theorem joinLines_lines (t : Text) : joinLines (lines t) = t := by
  fun_induction lines t with
  | case1 => rfl
  | case2 t ih =>
    cases h : lines t with
    | nil => exact absurd h (lines_ne_nil t)
    | cons l ls => rw [h] at ih; simp [joinLines, ih]
  | case3 c t _ h => exact absurd h (lines_ne_nil t)
  | case4 c t _ l ls h ih =>
    rw [h] at ih
    cases ls <;> simp_all [joinLines]

/-- The text with each carriage return, alone or before a newline, read as a newline. -/
def normalizeNewlines : Text → Text
  | [] => []
  | '\r' :: '\n' :: t => '\n' :: normalizeNewlines t
  | c :: t => (if c = '\r' then '\n' else c) :: normalizeNewlines t

def pieces (sep : Char) : Text → List Text
  | [] => [[]]
  | c :: t =>
    if c = sep then [] :: pieces sep t
    else match pieces sep t with
      | [] => [[c]]
      | p :: ps => (c :: p) :: ps

end ModalEditing.Text
