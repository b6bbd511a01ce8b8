import ModalEditing.Text.Blank
import ModalEditing.Text.CaseTable

namespace ModalEditing.Text

def isTransparent (c : Char) : Bool := inRanges transparentRanges c.toNat

def isCased (c : Char) : Bool :=
  c.isAlpha || (0x7F < c.toNat && inRanges casedRanges c.toNat)

private def mapCode (runs : List CaseRun) (c : Char) : Char :=
  match runs.findSome? (·.map? c.toNat) with
  | some n => Char.ofNat n
  | none => c

/-- The capital dotted I alone is spelt with two characters in lower case. -/
def lowerChar (c : Char) : Text :=
  if c.toNat < 0x80 then [c.toLower]
  else if c = 'İ' then ['i', '\u0307']
  else [mapCode lowerRuns c]

theorem lowerChar_of_wide {c : Char} (h : 0x80 ≤ c.toNat) (hi : c ≠ 'İ') :
    lowerChar c = [((lowerRuns.findSome? (·.map? c.toNat)).map Char.ofNat).getD c] := by
  rw [lowerChar, if_neg (Nat.not_lt.mpr h), if_neg hi, mapCode]
  cases lowerRuns.findSome? (·.map? c.toNat) <;> rfl

def upperChar (c : Char) : Text :=
  if c.toNat < 0x80 then [c.toUpper]
  else match upperSpellings.lookup c.toNat with
    | some codes => codes.map Char.ofNat
    | none => [mapCode upperRuns c]

def startsCased (t : Text) : Bool :=
  match t.dropWhile isTransparent with
  | [] => false
  | c :: _ => isCased c

/-- Lower case after a text that `afterCased` says ends cased: a capital sigma ends a word as `ς`. -/
def lowerAfter (afterCased : Bool) : Text → Text
  | [] => []
  | c :: rest =>
    (if c = 'Σ' then [if afterCased && !startsCased rest then 'ς' else 'σ'] else lowerChar c)
      ++ lowerAfter (if isTransparent c then afterCased else isCased c) rest

def lower (s : String) : String := String.ofList (lowerAfter false s.toList)

def upper (s : String) : String := String.ofList (s.toList.flatMap upperChar)

end ModalEditing.Text
