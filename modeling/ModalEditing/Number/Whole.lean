import ModalEditing.Text.Quoted

namespace ModalEditing.Number

/-- The zeros of the scripts that have decimal digits; each is followed by its other nine. -/
def zeros : List Nat :=
  [0x30, 0x660, 0x6F0, 0x7C0, 0x966, 0x9E6, 0xA66, 0xAE6, 0xB66, 0xBE6, 0xC66, 0xCE6, 0xD66,
   0xDE6, 0xE50, 0xED0, 0xF20, 0x1040, 0x1090, 0x17E0, 0x1810, 0x1946, 0x19D0, 0x1A80, 0x1A90,
   0x1B50, 0x1BB0, 0x1C40, 0x1C50, 0xA620, 0xA8D0, 0xA900, 0xA9D0, 0xA9F0, 0xAA50, 0xABF0, 0xFF10,
   0x104A0, 0x10D30, 0x11066, 0x110F0, 0x11136, 0x111D0, 0x112F0, 0x11450, 0x114D0, 0x11650,
   0x116C0, 0x11730, 0x118E0, 0x11950, 0x11C50, 0x11D50, 0x11DA0, 0x16A60, 0x16AC0, 0x16B50,
   0x1D7CE, 0x1D7D8, 0x1D7E2, 0x1D7EC, 0x1D7F6, 0x1E140, 0x1E2F0, 0x1E950, 0x1FBF0]

def digitValue? (c : Char) : Option Nat :=
  zeros.findSome? fun z => if z ≤ c.toNat && c.toNat ≤ z + 9 then some (c.toNat - z) else none

def digitLimit : Nat := 4300

inductive ReadError
  | tooLong (digits : Nat)
  | notANumber (text : String)
deriving DecidableEq

inductive WriteError
  | tooLong
deriving DecidableEq

private def limitMessage : String :=
  s!"Exceeds the limit ({digitLimit} digits) for integer string conversion"

private def limitAdvice : String :=
  "; use sys.set_int_max_str_digits() to increase the limit"

def ReadError.message : ReadError → String
  | .tooLong n => limitMessage ++ s!": value has {n} digits" ++ limitAdvice
  | .notANumber t =>
    "invalid literal for int() with base 10: " ++ String.ofList ((Text.quote t).toList.take 200)

def WriteError.message : WriteError → String
  | .tooLong => limitMessage ++ limitAdvice

/-- One character as it counts in a number, or none for a character that no number holds. -/
def plainChar? (c : Char) : Option Char :=
  if c.toNat < 0x7F then some c
  else if Text.isBlank c then some ' '
  else (digitValue? c).map fun d => Char.ofNat ('0'.toNat + d)

/-- A text with the digits of all scripts as plain ones; the first character that cannot stand in a
number becomes a question mark and ends it. Plain text is left alone. -/
def plain (t : Text) : Text :=
  if t.all (·.toNat < 0x80) then t else go t
where
  go : Text → Text
    | [] => []
    | c :: t =>
      match plainChar? c with
      | some d => d :: go t
      | none => ['?']

def isSpace (c : Char) : Bool := c = ' ' || (9 ≤ c.toNat && c.toNat ≤ 13)

def underscoresPart : (afterDigit : Bool) → Text → Bool
  | afterDigit, [] => afterDigit
  | afterDigit, c :: t =>
    if c = '_' then afterDigit && underscoresPart false t else underscoresPart true t

def value (t : Text) : Nat :=
  t.foldl (fun n c => if c.isDigit then 10 * n + (c.toNat - '0'.toNat) else n) 0

def read (s : String) : Except ReadError Int :=
  let t := (plain s.toList).dropWhile isSpace
  let negative := t.head? = some '-'
  let t := if negative || t.head? = some '+' then t.tail else t
  let body := t.takeWhile fun c => c.isDigit || c = '_'
  let digits := body.countP Char.isDigit
  if !underscoresPart false body then .error (.notANumber s)
  else if digitLimit < digits then .error (.tooLong digits)
  else if !((t.drop body.length).all isSpace) then .error (.notANumber s)
  else .ok (if negative then -(value body : Int) else value body)

def write (n : Int) : Except WriteError String :=
  if Nat.pow 10 digitLimit ≤ n.natAbs then .error .tooLong else .ok (toString n)

end ModalEditing.Number
