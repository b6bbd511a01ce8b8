import ModalEditing.Assoc
import ModalEditing.Number.Double

namespace ModalEditing

/-- A number below 0x110000. JSON escapes can write half of a surrogate pair alone, so the texts in
JSON values are made of these and not of characters. -/
abbrev CodePoint := Fin 0x110000

instance CodePoint.neZero : @NeZero Nat Zero.ofOfNat0 0x110000 := ⟨by decide⟩

def CodePoint.ofChar (c : Char) : CodePoint :=
  ⟨c.toNat, by have := c.valid; simp only [UInt32.isValidChar, Nat.isValidChar] at this; simp only [Char.toNat]; omega⟩

/-- The character it stands for; half of a surrogate pair stands for none. -/
def CodePoint.char? (n : CodePoint) : Option Char :=
  if n.val.isValidChar then some (Char.ofNat n) else none

theorem CodePoint.char?_ofChar (c : Char) : (ofChar c).char? = some c := by
  have hvalid : c.toNat.isValidChar := c.valid
  rw [char?, ofChar, if_pos hvalid, Char.ofNat_toNat]

namespace Json

abbrev Str := List CodePoint

def Str.ofString (s : String) : Str := s.toList.map CodePoint.ofChar

/-- The text as characters; half of a surrogate pair becomes the replacement character. -/
def Str.toString (s : Str) : String :=
  String.ofList (s.map fun n => n.char?.getD '\uFFFD')

def Str.le : Str → Str → Bool
  | [], _ => true
  | _ :: _, [] => false
  | a :: s, b :: t => a < b || (a = b && le s t)

end Json

/-- Numbers written without fraction and exponent are exact. -/
inductive Json
  | null
  | bool (b : Bool)
  | int (n : Int)
  | float (x : Number.Double)
  | str (s : Json.Str)
  | arr (items : List Json)
  | obj (fields : List (Json.Str × Json))
deriving Inhabited

namespace Json

def string (s : String) : Json := .str (Str.ofString s)

def truthy : Json → Bool
  | .null => false
  | .bool b => b
  | .int n => n != 0
  | .float x => !x.isZero
  | .str s => !s.isEmpty
  | .arr items => !items.isEmpty
  | .obj fields => !fields.isEmpty

end Json
end ModalEditing
