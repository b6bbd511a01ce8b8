namespace ModalEditing.Number

/-- A number by its bits: sign, 11 bits of exponent, 52 of fraction. -/
structure Double where
  bits : UInt64
deriving DecidableEq

namespace Double

def negative (x : Double) : Bool := x.bits >>> 63 != 0

def exponentField (x : Double) : Nat := ((x.bits >>> 52) &&& 0x7FF).toNat

def fractionField (x : Double) : Nat := (x.bits &&& 0xFFFFFFFFFFFFF).toNat

def isFinite (x : Double) : Bool := x.exponentField != 0x7FF

def isNaN (x : Double) : Bool := !x.isFinite && x.fractionField != 0

def isZero (x : Double) : Bool := x.bits <<< 1 == 0

/-- The magnitude of a finite number is `significand * 2 ^ (scale - 1074)`. -/
def significand (x : Double) : Nat :=
  if x.exponentField = 0 then x.fractionField else x.fractionField + Nat.pow 2 52

def scale (x : Double) : Nat := x.exponentField - 1

def infinity (negative : Bool) : Double :=
  ⟨if negative then 0xFFF0000000000000 else 0x7FF0000000000000⟩

def nan : Double := ⟨0x7FF8000000000000⟩

/-- The quotient rounded to the nearest number, a tie to the even one. -/
def roundDiv (num den : Nat) : Nat :=
  let q := num / den
  let twice := 2 * (num % den)
  if den < twice || (twice = den && q % 2 = 1) then q + 1 else q

/-- The number nearest to `num / den`, a tie going to the even significand. -/
def ofRatio (negative : Bool) (num den : Nat) : Double :=
  let sign : UInt64 := if negative then 0x8000000000000000 else 0
  if num = 0 then ⟨sign⟩
  else
    -- `s` is the scale at which the quotient has 53 bits, or zero where there is none so small
    let up := Nat.log2 num + 1074
    let guess := up - Nat.log2 den - 52
    let ratio (s : Nat) := (num * Nat.pow 2 1074, den * Nat.pow 2 s)
    let s := if guess = 0 then 0
      else if (ratio guess).1 / (ratio guess).2 < Nat.pow 2 52 then guess - 1 else guess
    let m := roundDiv (ratio s).1 (ratio s).2
    let (m, s) := if m = Nat.pow 2 53 then (Nat.pow 2 52, s + 1) else (m, s)
    if 2046 ≤ s then infinity negative
    else if m < Nat.pow 2 52 then ⟨sign ||| m.toUInt64⟩
    else ⟨sign ||| ((s + 1).toUInt64 <<< 52) ||| (m - Nat.pow 2 52).toUInt64⟩

def ofDecimal (negative : Bool) (m : Nat) (e : Int) : Double :=
  -- bounds on the decimal digits of `m` keep the powers small
  if m = 0 || (Nat.log2 m / 3 + 1 : Nat) + e < -330 then ofRatio negative 0 1
  else if 400 < (Nat.log2 m * 3 / 10 : Nat) + e then infinity negative
  else if 0 ≤ e then ofRatio negative (m * Nat.pow 10 e.toNat) 1
  else ofRatio negative m (Nat.pow 10 (-e).toNat)

structure Decimal where
  digits : Nat
  exponent : Int
deriving DecidableEq

/-- Whether `d * 10 ^ e` reads back as the positive number `x`: it lies between the midpoints to
the neighbours of `x`, the midpoints included when the significand is even. -/
def readsBack (x : Double) (d : Nat) (e : Int) : Bool :=
  let m := x.significand
  -- all sides are scaled by `4 * 2 ^ 1074 * 10 ^ k`, so that they are whole
  let k := (-e).toNat
  let point := 4 * d * Nat.pow 10 (e + k).toNat * Nat.pow 2 1074
  let unit := Nat.pow 2 x.scale * Nat.pow 10 k
  let below := if m = Nat.pow 2 52 && x.scale ≠ 0 then 4 * m - 1 else 4 * m - 2
  let low := below * unit
  let high := (4 * m + 2) * unit
  if m % 2 = 0 then low ≤ point && point ≤ high else low < point && point < high

/-- The decimal with the exponent `e` nearest to `x` among its two neighbours there that read back. -/
def onGrid? (x : Double) (e : Int) : Option Decimal :=
  let num := x.significand * Nat.pow 2 x.scale * Nat.pow 10 (-e).toNat
  let den := Nat.pow 2 1074 * Nat.pow 10 e.toNat
  let near := roundDiv num den
  let other := if near * den ≤ num then near + 1 else near - 1
  if readsBack x near e then some ⟨near, e⟩
  else if readsBack x other e then some ⟨other, e⟩
  else none

def wholeDigits (x : Double) : Int :=
  let num := x.significand * Nat.pow 2 x.scale
  let den := Nat.pow 2 1074
  if den ≤ num then (Nat.toDigits 10 (num / den)).length
  else 1 - ((Nat.toDigits 10 ((den - 1) / num)).length : Int)

def shortest (x : Double) : Decimal :=
  let top := x.wholeDigits
  match (List.range 17).findSome? fun n : Nat => x.onGrid? (top - 1 - n) with
  | some d => d
  | none => ⟨0, 0⟩

structure Spelling where
  nan : String
  infinity : String

/-- Digits are positional from 0.0001 up to and without 10^16, with at least one decimal; beyond,
the exponent has a sign and at least two digits. -/
def render (sp : Spelling) (x : Double) : String :=
  let sign := if x.negative then "-" else ""
  if x.isNaN then sp.nan
  else if !x.isFinite then sign ++ sp.infinity
  else if x.isZero then sign ++ "0.0"
  else
    let d := x.shortest
    let ds := (Nat.toDigits 10 d.digits).reverse.dropWhile (· = '0') |>.reverse
    let point : Int := (Nat.toDigits 10 d.digits).length + d.exponent
    let n := ds.length
    let body : List Char :=
      if -4 < point && point ≤ 0 then ['0', '.'] ++ List.replicate (-point).toNat '0' ++ ds
      else if 0 < point && point ≤ 16 then
        let p := point.toNat
        if n ≤ p then ds ++ List.replicate (p - n) '0' ++ ['.', '0']
        else ds.take p ++ '.' :: ds.drop p
      else
        let e := point - 1
        let es := Nat.toDigits 10 e.natAbs
        ds.take 1 ++ (if n = 1 then [] else '.' :: ds.drop 1)
          ++ ['e', if e < 0 then '-' else '+'] ++ List.replicate (2 - es.length) '0' ++ es
    sign ++ String.ofList body

end Double
end ModalEditing.Number
