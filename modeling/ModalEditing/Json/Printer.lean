import ModalEditing.Json.Basic
import ModalEditing.Number.Whole

namespace ModalEditing.Json

mutual
def fits : Json → Bool
  | .int n => n.natAbs < Nat.pow 10 Number.digitLimit
  | .arr items => allFit items
  | .obj fields => fieldsFit fields
  | _ => true

def allFit : List Json → Bool
  | [] => true
  | j :: js => fits j && allFit js

def fieldsFit : List (Str × Json) → Bool
  | [] => true
  | (_, j) :: fs => fits j && fieldsFit fs
end

def shortEscape? (n : CodePoint) : Option Char :=
  if n = 0x22 then some '"'
  else if n = 0x5C then some '\\'
  else if n = 8 then some 'b'
  else if n = 9 then some 't'
  else if n = 10 then some 'n'
  else if n = 12 then some 'f'
  else if n = 13 then some 'r'
  else none

private def unit (n : Nat) : Text := '\\' :: 'u' :: Text.hex 4 n

/-- A code point in plain ASCII; those above 0xFFFF take two escapes. -/
def escape (n : CodePoint) : Text :=
  match shortEscape? n with
  | some c => ['\\', c]
  | none =>
    if 0x20 ≤ n.val && n.val < 0x7F then [Char.ofNat n]
    else if n.val < 0x10000 then unit n
    else unit (0xD800 + (n.val - 0x10000) / 0x400) ++ unit (0xDC00 + (n.val - 0x10000) % 0x400)

def strText (s : Str) : Text := '"' :: s.flatMap escape ++ ['"']

/-- On one line, or with each item on a line of its own, indented by two. -/
inductive Layout
  | line
  | block
deriving DecidableEq

def Layout.gap (l : Layout) (depth : Nat) : Text :=
  match l with
  | .line => []
  | .block => '\n' :: List.replicate (2 * depth) ' '

def Layout.comma (l : Layout) (depth : Nat) : Text :=
  match l with
  | .line => [',', ' ']
  | .block => ',' :: l.gap depth

mutual
def ordered : Json → Json
  | .arr items => .arr (orderedItems items)
  | .obj fields => .obj ((orderedFields fields).mergeSort fun a b => a.1.le b.1)
  | j => j

def orderedItems : List Json → List Json
  | [] => []
  | j :: js => ordered j :: orderedItems js

def orderedFields : List (Str × Json) → List (Str × Json)
  | [] => []
  | (k, j) :: fs => (k, ordered j) :: orderedFields fs
end

mutual
/-- The JSON text of a value at this depth, and the rest of the text after it. -/
def text (l : Layout) (depth : Nat) : Json → (rest : Text) → Text
  | .null, rest => "null".toList ++ rest
  | .bool b, rest => (if b then "true" else "false").toList ++ rest
  | .int n, rest => (toString n).toList ++ rest
  | .float x, rest => (x.render ⟨"NaN", "Infinity"⟩).toList ++ rest
  | .str s, rest => strText s ++ rest
  | .arr [], rest => '[' :: ']' :: rest
  | .arr (j :: js), rest =>
    '[' :: (l.gap (depth + 1) ++ text l (depth + 1) j (itemsText l depth js rest))
  | .obj [], rest => '\x7b' :: '\x7d' :: rest
  | .obj ((k, j) :: fs), rest =>
    '\x7b' :: (l.gap (depth + 1) ++ strText k ++ ':' :: ' ' ::
      text l (depth + 1) j (fieldsText l depth fs rest))

/-- What follows the first item of an array at this depth. -/
def itemsText (l : Layout) (depth : Nat) : List Json → (rest : Text) → Text
  | [], rest => l.gap depth ++ ']' :: rest
  | j :: js, rest => l.comma (depth + 1) ++ text l (depth + 1) j (itemsText l depth js rest)

def fieldsText (l : Layout) (depth : Nat) : List (Str × Json) → (rest : Text) → Text
  | [], rest => l.gap depth ++ '\x7d' :: rest
  | (k, j) :: fs, rest =>
    l.comma (depth + 1) ++ strText k ++ ':' :: ' ' ::
      text l (depth + 1) j (fieldsText l depth fs rest)
end

def write (l : Layout) (j : Json) : Except Number.WriteError Text :=
  if j.fits then .ok (text l 0 j.ordered []) else .error .tooLong

inductive WriteError
  | number (e : Number.WriteError)
  | tooDeep
deriving DecidableEq

def WriteError.message : WriteError → String
  | .number e => e.message
  | .tooDeep => "maximum recursion depth exceeded"

mutual
/-- What first keeps a value from being written when arrays and objects with something in them may be
nested this deep. -/
def obstacle? : (depth : Nat) → Json → Option WriteError
  | _, .int n => if n.natAbs < Nat.pow 10 Number.digitLimit then none else some (.number .tooLong)
  | 0, .arr (_ :: _) => some .tooDeep
  | depth + 1, .arr items => itemsObstacle? depth items
  | 0, .obj (_ :: _) => some .tooDeep
  | depth + 1, .obj fields => fieldsObstacle? depth fields
  | _, _ => none

def itemsObstacle? (depth : Nat) : List Json → Option WriteError
  | [] => none
  | j :: js => (obstacle? depth j).or (itemsObstacle? depth js)

def fieldsObstacle? (depth : Nat) : List (Str × Json) → Option WriteError
  | [] => none
  | (_, j) :: fs => (obstacle? depth j).or (fieldsObstacle? depth fs)
end

def writeWithin (depth : Nat) (l : Layout) (j : Json) : Except WriteError Text :=
  match obstacle? depth j.ordered with
  | some e => .error e
  | none => .ok (text l 0 j.ordered [])

mutual
/-- The literal form of a value; the fields of an object stand as they are. -/
def literalText : Json → Text
  | .null => "None".toList
  | .bool b => (if b then "True" else "False").toList
  | .int n => (toString n).toList
  | .float x => (x.render ⟨"nan", "inf"⟩).toList
  | .str s => Text.quoteCodes (s.map Fin.val)
  | .arr items => '[' :: [',', ' '].intercalate (literalTexts items) ++ [']']
  | .obj fields => '\x7b' :: [',', ' '].intercalate (fieldLiterals fields) ++ ['\x7d']

def literalTexts : List Json → List Text
  | [] => []
  | j :: js => literalText j :: literalTexts js

def fieldLiterals : List (Str × Json) → List Text
  | [] => []
  | (k, j) :: fs => (Text.quoteCodes (k.map Fin.val) ++ ':' :: ' ' :: literalText j) :: fieldLiterals fs
end

def literal (j : Json) : Except Number.WriteError String :=
  if j.fits then .ok (String.ofList (literalText j)) else .error .tooLong

def plain : Json → Except Number.WriteError String
  | .str s => .ok s.toString
  | j => j.literal

end ModalEditing.Json
