namespace ModalEditing.Text

abbrev CodeRange := Nat × Nat

def inRanges (rs : List CodeRange) (n : Nat) : Bool :=
  rs.any fun r => r.1 ≤ n && n ≤ r.2

end ModalEditing.Text
