import Mathlib.Data.Nat.Notation
import Mathlib.Tactic.SplitIfs
import ModalEditing.Json.Printer
import ModalEditing.Json.Reader

namespace ModalEditing.Json

def IsHalf (n : CodePoint) : Prop := 0xD800 ≤ n.val ∧ n.val < 0xE000

def Str.Whole (s : Str) : Prop := ∀ n ∈ s, ¬ IsHalf n

theorem toNat_ofNat {n : ℕ} (h : n < 0xD800) : (Char.ofNat n).toNat = n := by
  rw [Char.ofNat, dif_pos (Or.inl h)]
  rfl

theorem ofChar_ofNat {n : CodePoint} (h : n.val < 0xD800) : CodePoint.ofChar (Char.ofNat n.val) = n :=
  Fin.ext (toNat_ofNat h)

def highHalf (n : CodePoint) : CodePoint := ⟨0xD800 + (n.val - 0x10000) / 0x400, by omega⟩

def lowHalf (n : CodePoint) : CodePoint := ⟨0xDC00 + (n.val - 0x10000) % 0x400, by omega⟩

/-- The units that the escapes of a code point stand for. -/
def units16 (n : CodePoint) : Str := if n.val < 0x10000 then [n] else [highHalf n, lowHalf n]

section
variable {n : CodePoint}

theorem escape_of_short {c : Char} (h : shortEscape? n = some c) : escape n = ['\\', c] := by
  rw [escape, h]

theorem lt_of_short {c : Char} (h : shortEscape? n = some c) : n.val < 0x10000 := by
  unfold shortEscape? at h
  split_ifs at h <;> subst n <;> decide

theorem escape_of_plain (h : shortEscape? n = none) (hlow : 0x20 ≤ n.val) (hhigh : n.val < 0x7F) :
    escape n = [Char.ofNat n.val] := by
  rw [escape, h]
  simp only [hlow, hhigh, decide_true, Bool.and_self, if_true]

theorem escape_of_unit (h : shortEscape? n = none) (hplain : ¬ (0x20 ≤ n.val ∧ n.val < 0x7F))
    (hlt : n.val < 0x10000) : escape n = '\\' :: 'u' :: Text.hex 4 n.val := by
  rw [escape, h]
  simp only [← Bool.decide_and, hplain, decide_false, Bool.false_eq_true, if_false, hlt, if_true]
  rfl

theorem escape_of_pair (h : shortEscape? n = none) (hge : ¬ n.val < 0x10000) :
    escape n = ('\\' :: 'u' :: Text.hex 4 (highHalf n).val)
      ++ ('\\' :: 'u' :: Text.hex 4 (lowHalf n).val) := by
  have hplain : ¬ (0x20 ≤ n.val ∧ n.val < 0x7F) := by omega
  rw [escape, h]
  simp only [← Bool.decide_and, hplain, decide_false, Bool.false_eq_true, if_false, hge]
  rfl

end

namespace Reader
variable {t rest : Text} {s : Str} {n : CodePoint}

theorem hexValue?_hexDigit : ∀ d < 16, hexValue? (Text.hexDigit d) = some d := by
  decide

theorem hexUnit?_hex (h : n.val < 0x10000) : ∃ a b c d, Text.hex 4 n.val = [a, b, c, d] ∧
    hexUnit? a b c d = some n := by
  refine ⟨_, _, _, _, rfl, ?_⟩
  have h1 := hexValue?_hexDigit (n.val / 16 / 16 / 16 % 16) (by omega)
  have h2 := hexValue?_hexDigit (n.val / 16 / 16 % 16) (by omega)
  have h3 := hexValue?_hexDigit (n.val / 16 % 16) (by omega)
  have h4 := hexValue?_hexDigit (n.val % 16) (by omega)
  have hsum : ((n.val / 16 / 16 / 16 % 16 * 16 + n.val / 16 / 16 % 16) * 16 + n.val / 16 % 16) * 16
      + n.val % 16 = n.val := by
    omega
  simp only [hexUnit?, h1, h2, h3, h4, Option.bind_eq_bind, Option.bind_some, hsum, n.isLt, dif_pos]

theorem units_hex (h : n.val < 0x10000) (ht : units t = some (s, rest)) :
    units ('\\' :: 'u' :: Text.hex 4 n.val ++ t) = some (n :: s, rest) := by
  obtain ⟨a, b, c, d, hhex, hunit⟩ := hexUnit?_hex h
  rw [hhex]
  show units ('\\' :: 'u' :: a :: b :: c :: d :: t) = _
  rw [units, hunit, ht]
  rfl

theorem shortEscape?_inverse {c : Char} (h : Json.shortEscape? n = some c) :
    c ≠ 'u' ∧ shortEscape? c = some n := by
  unfold Json.shortEscape? at h
  split_ifs at h with h1 h2 h3 h4 h5 h6 h7
  all_goals
    obtain rfl := Option.some.inj h
    subst n
    exact ⟨by decide, rfl⟩

theorem units_short {c : Char} (hc : Json.shortEscape? n = some c) (ht : units t = some (s, rest)) :
    units ('\\' :: c :: t) = some (n :: s, rest) := by
  obtain ⟨hu, he⟩ := shortEscape?_inverse hc
  rw [units, he, ht]
  · rfl
  · rintro a b c d t rfl
    exact fun _ => hu rfl

theorem units_plain {c : Char} (h : 0x20 ≤ c.toNat) (hquote : c ≠ '"') (hslash : c ≠ '\\')
    (ht : units t = some (s, rest)) : units (c :: t) = some (CodePoint.ofChar c :: s, rest) := by
  rw [units, if_neg, ht]
  · rfl
  · simp only [hslash, decide_false, Bool.or_false, decide_eq_true_eq]
    omega
  all_goals simp_all

/-- The escapes of a code point are read as its units. -/
theorem units_escape (n : CodePoint) (ht : units t = some (s, rest)) :
    units (escape n ++ t) = some (units16 n ++ s, rest) := by
  cases hc : Json.shortEscape? n with
  | some c =>
    rw [escape_of_short hc, units16, if_pos (lt_of_short hc)]
    exact units_short hc ht
  | none =>
    by_cases hplain : 0x20 ≤ n.val ∧ n.val < 0x7F
    · have hn : CodePoint.ofChar (Char.ofNat n.val) = n := ofChar_ofNat (by omega)
      have hlow : 0x20 ≤ (Char.ofNat n.val).toNat := by
        rw [toNat_ofNat (by omega)]
        exact hplain.1
      -- The two marks that would end or escape have escapes of their own.
      have hquote : Char.ofNat n.val ≠ '"' := by
        intro h
        rw [← hn, h] at hc
        cases hc
      have hslash : Char.ofNat n.val ≠ '\\' := by
        intro h
        rw [← hn, h] at hc
        cases hc
      have hunits := units_plain hlow hquote hslash ht
      rw [hn] at hunits
      rw [escape_of_plain hc hplain.1 hplain.2, units16, if_pos (by omega)]
      exact hunits
    · by_cases hlt : n.val < 0x10000
      · rw [escape_of_unit hc hplain hlt, units16, if_pos hlt]
        exact units_hex hlt ht
      · have hhigh : (highHalf n).val < 0x10000 := by
          have := n.isLt
          show 0xD800 + (n.val - 0x10000) / 0x400 < 0x10000
          omega
        have hlow : (lowHalf n).val < 0x10000 := by
          show 0xDC00 + (n.val - 0x10000) % 0x400 < 0x10000
          omega
        rw [escape_of_pair hc hlt, units16, if_neg hlt, List.append_assoc]
        exact units_hex hhigh (units_hex hlow ht)

theorem units_escapes (s : Str) (rest : Text) :
    units (s.flatMap escape ++ '"' :: rest) = some (s.flatMap units16, rest) := by
  induction s with
  | nil => rfl
  | cons n s ih =>
    rw [List.flatMap_cons, List.append_assoc, List.flatMap_cons]
    exact units_escape n ih

theorem joinPairs_cons (h : ∀ m, pair? n m = none) (s : Str) : joinPairs (n :: s) = n :: joinPairs s := by
  cases s with
  | nil => rfl
  | cons m s => rw [joinPairs, h m]

theorem pair?_halves (h : ¬ n.val < 0x10000) : pair? (highHalf n) (lowHalf n) = some n := by
  have hn := n.isLt
  have hhigh : (highHalf n).val = 0xD800 + (n.val - 0x10000) / 0x400 := rfl
  have hlow : (lowHalf n).val = 0xDC00 + (n.val - 0x10000) % 0x400 := rfl
  rw [pair?, if_pos (by omega)]
  refine congrArg some (Fin.ext ?_)
  show (0x10000 + ((highHalf n).val - 0xD800) * 0x400 + ((lowHalf n).val - 0xDC00)) % 0x110000 = n.val
  omega

theorem joinPairs_units16 (hn : ¬ IsHalf n) (s : Str) :
    joinPairs (units16 n ++ s) = n :: joinPairs s := by
  unfold units16
  split
  · refine joinPairs_cons (fun m => ?_) s
    unfold IsHalf at hn
    rw [pair?, if_neg (by omega)]
  · rename_i hge
    show joinPairs (highHalf n :: lowHalf n :: s) = _
    rw [joinPairs, pair?_halves hge]

/-- The units of a string are joined to it again. -/
theorem joinPairs_units (hs : s.Whole) : joinPairs (s.flatMap units16) = s := by
  induction s with
  | nil => rfl
  | cons n s ih =>
    rw [List.flatMap_cons, joinPairs_units16 (hs n List.mem_cons_self),
      ih fun m hm => hs m (List.mem_cons_of_mem n hm)]

/-- Reading undoes the writing of a string. -/
theorem string_strText (hs : s.Whole) (rest : Text) :
    string (s.flatMap escape ++ '"' :: rest) = some (s, rest) := by
  rw [string, units_escapes, Option.map_some]
  exact congrArg (fun s => some (s, rest)) (joinPairs_units hs)

end Reader
end ModalEditing.Json
