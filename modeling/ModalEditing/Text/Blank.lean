namespace ModalEditing

/-- A text as it is edited, cut and put back: positions in it count characters. -/
abbrev Text := List Char

namespace Text

/-- White space: the spaces and separators, and the controls that move the carriage or part records. -/
def isBlank (c : Char) : Bool :=
  let n := c.toNat
  (9 ≤ n && n ≤ 13) || (28 ≤ n && n ≤ 32) || n == 0x85 || n == 0xA0 || n == 0x1680
    || (0x2000 ≤ n && n ≤ 0x200A) || n == 0x2028 || n == 0x2029 || n == 0x202F || n == 0x205F
    || n == 0x3000

def trimLeft (t : Text) : Text := t.dropWhile isBlank

def trimRight (t : Text) : Text := (t.reverse.dropWhile isBlank).reverse

def trim (t : Text) : Text := trimRight (trimLeft t)

def indent (t : Text) : Nat := (t.takeWhile isBlank).length

theorem indent_le_length (t : Text) : indent t ≤ t.length :=
  (List.takeWhile_sublist _).length_le

end Text
end ModalEditing
