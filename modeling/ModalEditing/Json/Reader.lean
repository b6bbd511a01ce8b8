import ModalEditing.Json.Basic
import ModalEditing.Number.Whole

namespace ModalEditing.Json

/-- How many digits a whole number may have, and how deep arrays and objects may be nested. -/
structure Limits where
  digits : Option Nat := none
  depth : Option Nat := none

def Limits.within (depth : Nat) : Limits := { digits := some Number.digitLimit, depth := some depth }

/-- The limits inside another array or object, if there may be one. -/
def Limits.inner? (l : Limits) : Option Limits :=
  match l.depth with
  | none => some l
  | some 0 => none
  | some (n + 1) => some { l with depth := some n }

inductive Collection
  | array
  | object
deriving DecidableEq

def Collection.name : Collection → String
  | .array => "array"
  | .object => "object"

/-- Why a text is not read: it is not JSON, or a collection in it lies too deep. -/
inductive ReadError
  | malformed
  | tooDeep (c : Collection)
deriving DecidableEq

def ReadError.message : ReadError → String
  | .malformed => "not JSON"
  | .tooDeep c =>
    "maximum recursion depth exceeded while decoding a JSON " ++ c.name ++ " from a unicode string"

namespace Reader

def isGap (c : Char) : Bool := c = ' ' || c = '\t' || c = '\n' || c = '\r'

def skip (t : Text) : Text := t.dropWhile isGap

def hexValue? (c : Char) : Option Nat :=
  if c.isDigit then some (c.toNat - '0'.toNat)
  else if 'a' ≤ c && c ≤ 'f' then some (c.toNat - 'a'.toNat + 10)
  else if 'A' ≤ c && c ≤ 'F' then some (c.toNat - 'A'.toNat + 10)
  else none

def hexUnit? (a b c d : Char) : Option CodePoint := do
  let n := (((← hexValue? a) * 16 + (← hexValue? b)) * 16 + (← hexValue? c)) * 16 + (← hexValue? d)
  if h : n < 0x110000 then some ⟨n, h⟩ else none

def shortEscape? (c : Char) : Option CodePoint :=
  match c with
  | '"' => some 0x22
  | '\\' => some 0x5C
  | '/' => some 0x2F
  | 'b' => some 8
  | 't' => some 9
  | 'n' => some 10
  | 'f' => some 12
  | 'r' => some 13
  | _ => none

def units : Text → Option (Str × Text)
  | [] => none
  | '"' :: t => some ([], t)
  | '\\' :: 'u' :: a :: b :: c :: d :: t => do
    let n ← hexUnit? a b c d
    let (s, rest) ← units t
    some (n :: s, rest)
  | '\\' :: e :: t => do
    let n ← shortEscape? e
    let (s, rest) ← units t
    some (n :: s, rest)
  | c :: t =>
    if c.toNat < 0x20 || c = '\\' then none
    else do
      let (s, rest) ← units t
      some (CodePoint.ofChar c :: s, rest)

def pair? (high low : CodePoint) : Option CodePoint :=
  if 0xD800 ≤ high.val ∧ high.val < 0xDC00 ∧ 0xDC00 ≤ low.val ∧ low.val < 0xE000 then
    some (Fin.ofNat 0x110000 (0x10000 + (high.val - 0xD800) * 0x400 + (low.val - 0xDC00)))
  else none

/-- Units with each surrogate pair joined; a half alone stays. -/
def joinPairs : Str → Str
  | [] => []
  | [n] => [n]
  | n :: m :: s =>
    match pair? n m with
    | some p => p :: joinPairs s
    | none => n :: joinPairs (m :: s)

def string (t : Text) : Option (Str × Text) :=
  (units t).map fun (s, rest) => (joinPairs s, rest)

def digits (t : Text) : Text := t.takeWhile Char.isDigit

def fraction : Text → Text × Text
  | '.' :: t => if (digits t).isEmpty then ([], '.' :: t) else (digits t, t.dropWhile Char.isDigit)
  | t => ([], t)

def exponent (t : Text) : Option Int × Text :=
  match t with
  | e :: r =>
    if e = 'e' || e = 'E' then
      let (negative, ds) := match r with
        | '-' :: r => (true, r)
        | '+' :: r => (false, r)
        | r => (false, r)
      if (digits ds).isEmpty then (none, t)
      else
        let n : Int := Number.value (digits ds)
        (some (if negative then -n else n), ds.dropWhile Char.isDigit)
    else (none, t)
  | [] => (none, t)

/-- The digits before the point: no zero stands in front of another digit. -/
def whole? : Text → Option (Text × Text)
  | '0' :: t => some (['0'], t)
  | t => if (digits t).isEmpty then none else some (digits t, t.dropWhile Char.isDigit)

def number (limit : Option Nat) (t : Text) : Option (Json × Text) := do
  let negative := t.head? = some '-'
  let (ws, t) ← whole? (if negative then t.tail else t)
  let (fs, t) := fraction t
  let (ex, t) := exponent t
  if fs.isEmpty && ex.isNone then
    if limit.any (· < ws.length) then none
    else
      let n : Int := Number.value ws
      some (.int (if negative then -n else n), t)
  else
    let e : Int := ex.getD 0 - fs.length
    some (.float (Number.Double.ofDecimal negative (Number.value (ws ++ fs)) e), t)

def orMalformed {α : Type} : Option α → Except ReadError α
  | some a => .ok a
  | none => .error .malformed

mutual
def value (limits : Limits) : (fuel : Nat) → Text → Except ReadError (Json × Text)
  | 0, _ => .error .malformed
  | fuel + 1, t =>
    match t with
    | '"' :: t => (orMalformed (string t)).map fun (s, rest) => (.str s, rest)
    | '[' :: t =>
      match limits.inner? with
      | none => .error (.tooDeep .array)
      | some inner =>
        match skip t with
        | ']' :: rest => .ok (.arr [], rest)
        | t => (items inner fuel t).map fun (js, rest) => (.arr js, rest)
    | '\x7b' :: t =>
      match limits.inner? with
      | none => .error (.tooDeep .object)
      | some inner =>
        match skip t with
        | '\x7d' :: rest => .ok (.obj [], rest)
        | t => (fields inner fuel [] t).map fun (fs, rest) => (.obj fs, rest)
    | 'n' :: 'u' :: 'l' :: 'l' :: rest => .ok (.null, rest)
    | 't' :: 'r' :: 'u' :: 'e' :: rest => .ok (.bool true, rest)
    | 'f' :: 'a' :: 'l' :: 's' :: 'e' :: rest => .ok (.bool false, rest)
    | 'N' :: 'a' :: 'N' :: rest => .ok (.float .nan, rest)
    | 'I' :: 'n' :: 'f' :: 'i' :: 'n' :: 'i' :: 't' :: 'y' :: rest =>
      .ok (.float (.infinity false), rest)
    | '-' :: 'I' :: 'n' :: 'f' :: 'i' :: 'n' :: 'i' :: 't' :: 'y' :: rest =>
      .ok (.float (.infinity true), rest)
    | t => orMalformed (number limits.digits t)

def items (limits : Limits) : (fuel : Nat) → Text → Except ReadError (List Json × Text)
  | 0, _ => .error .malformed
  | fuel + 1, t => do
    let (j, t) ← value limits fuel t
    match skip t with
    | ']' :: rest => .ok ([j], rest)
    | ',' :: t =>
      let (js, rest) ← items limits fuel (skip t)
      .ok (j :: js, rest)
    | _ => .error .malformed

/-- The fields up to the closing brace, put one after the other onto those read before. -/
def fields (limits : Limits) :
    (fuel : Nat) → List (Str × Json) → Text → Except ReadError (List (Str × Json) × Text)
  | 0, _, _ => .error .malformed
  | fuel + 1, read, t =>
    match t with
    | '"' :: t => do
      let (k, t) ← orMalformed (string t)
      match skip t with
      | ':' :: t =>
        let (j, t) ← value limits fuel (skip t)
        match skip t with
        | '\x7d' :: rest => .ok (Assoc.put k j read, rest)
        | ',' :: t => fields limits fuel (Assoc.put k j read) (skip t)
        | _ => .error .malformed
      | _ => .error .malformed
    | _ => .error .malformed
end

end Reader

/-- The value that a text holds and nothing else beside it. The words `NaN`, `Infinity` and `-Infinity` are
numbers, and of a repeated key the last value counts. -/
def read (limits : Limits) (t : Text) : Except ReadError Json := do
  let (j, rest) ← Reader.value limits (2 * t.length + 2) (Reader.skip t)
  if (Reader.skip rest).isEmpty then .ok j else .error .malformed

end ModalEditing.Json
