import ModalEditing.Json.Printer
import ModalEditing.Json.Reader
import ModalEditing.Proofs.Number.Digits

namespace ModalEditing

namespace Number

/-- A number goes on with none of the characters that this text begins with. -/
def Ends (rest : Text) : Prop :=
  ∀ c, rest.head? = some c → c.isDigit = false ∧ c ≠ '.' ∧ c ≠ 'e' ∧ c ≠ 'E'

theorem value_toDigits (n : ℕ) : value (Nat.toDigits 10 n) = n := by
  have hfold (t : Text) (ht : ∀ c ∈ t, c.isDigit = true) (m : ℕ) :
      t.foldl (fun n c => if c.isDigit then 10 * n + (c.toNat - '0'.toNat) else n) m
        = Nat.ofDigitChars 10 t m := by
    induction t generalizing m with
    | nil => rfl
    | cons c t ih =>
      rw [List.foldl_cons, if_pos (ht c List.mem_cons_self),
        ih fun x hx => ht x (List.mem_cons_of_mem c hx)]
      rfl
  rw [value, hfold _ (fun c hc => Nat.isDigit_of_mem_toDigits (by decide) (by decide) hc)]
  exact Nat.ofDigitChars_ten_toDigits

/-- The digits of a number begin with a zero only where that is all. -/
theorem toDigits_cases (n : ℕ) : n = 0 ∧ Nat.toDigits 10 n = ['0'] ∨
    ∃ c t, Nat.toDigits 10 n = c :: t ∧ c ≠ '0' := by
  induction n using Nat.strongRecOn with
  | ind n ih =>
    by_cases hn : n < 10
    · have hzero : ∀ m < 10, m = 0 ∨ m.digitChar ≠ '0' := by decide
      rw [Nat.toDigits_of_lt_base hn]
      rcases hzero n hn with rfl | hne
      · exact .inl ⟨rfl, rfl⟩
      · exact .inr ⟨n.digitChar, [], rfl, hne⟩
    · rw [Nat.toDigits_of_base_le (by decide) (by omega)]
      rcases ih (n / 10) (by omega) with ⟨hz, -⟩ | ⟨c, t, ht, hc⟩
      · omega
      · rw [ht]
        exact .inr ⟨c, t ++ [(n % 10).digitChar], rfl, hc⟩

end Number

namespace Json.Reader
open Number
variable {rest : Text} {limit : ℕ}

theorem digits_append {ds : Text} (hd : ∀ c ∈ ds, c.isDigit = true) (hr : Ends rest) :
    digits (ds ++ rest) = ds ∧ (ds ++ rest).dropWhile Char.isDigit = rest := by
  have hrest : rest.takeWhile Char.isDigit = [] ∧ rest.dropWhile Char.isDigit = rest := by
    cases rest with
    | nil => exact ⟨rfl, rfl⟩
    | cons c t =>
      have hc := (hr c rfl).1
      exact ⟨List.takeWhile_cons_of_neg (by simp [hc]), List.dropWhile_cons_of_neg (by simp [hc])⟩
  rw [digits, List.takeWhile_append_of_pos hd, List.dropWhile_append_of_pos hd, hrest.1, hrest.2,
    List.append_nil]
  exact ⟨rfl, rfl⟩

theorem whole?_toDigits (n : ℕ) (hr : Ends rest) :
    whole? (Nat.toDigits 10 n ++ rest) = some (Nat.toDigits 10 n, rest) := by
  have hd : ∀ c ∈ Nat.toDigits 10 n, c.isDigit = true := fun c hc =>
    Nat.isDigit_of_mem_toDigits (by decide) (by decide) hc
  rcases toDigits_cases n with ⟨rfl, hz⟩ | ⟨c, t, ht, hc⟩
  · rw [hz]
    rfl
  · obtain ⟨hdigits, hdrop⟩ := digits_append hd hr
    have hne : (digits (Nat.toDigits 10 n ++ rest)).isEmpty = false := by
      rw [hdigits, ht]
      rfl
    have hwhole : whole? (Nat.toDigits 10 n ++ rest)
        = if (digits (Nat.toDigits 10 n ++ rest)).isEmpty then none
          else some (digits (Nat.toDigits 10 n ++ rest),
            (Nat.toDigits 10 n ++ rest).dropWhile Char.isDigit) := by
      rw [ht, List.cons_append, whole?]
      intro t' h
      exact hc (List.cons.inj h).1
    rw [hwhole, hne, hdigits, hdrop]
    rfl

theorem fraction_of_ends (hr : Ends rest) : fraction rest = ([], rest) := by
  unfold fraction
  split
  · exact absurd rfl (hr '.' rfl).2.1
  · rfl

theorem exponent_of_ends (hr : Ends rest) : exponent rest = (none, rest) := by
  cases rest with
  | nil => rfl
  | cons c t =>
    obtain ⟨-, -, he, hE⟩ := hr c rfl
    simp only [exponent, he, hE, decide_false, Bool.or_self, Bool.false_eq_true, if_false]

theorem number_of_whole {t ws : Text} {negative : Bool} (hneg : t.head? = some '-' ↔ negative = true)
    (hwhole : whole? (if negative then t.tail else t) = some (ws, rest)) (hws : ws.length ≤ limit)
    (hr : Ends rest) :
    number (some limit) t
      = some (.int (if negative then -(Number.value ws : ℤ) else Number.value ws), rest) := by
  have hlong : Option.any (fun n => decide (n < ws.length)) (some limit) = false :=
    decide_eq_false (Nat.not_lt.mpr hws)
  simp only [number, hneg, hwhole, fraction_of_ends hr, exponent_of_ends hr, hlong,
    Option.bind_eq_bind, Option.bind_some, List.isEmpty_nil, Option.isNone_none, Bool.and_self, if_true,
    Bool.false_eq_true, if_false]

/-- Reading undoes the writing of a whole number. -/
theorem number_toString {n : ℤ} (hn : n.natAbs < Nat.pow 10 limit) (hlimit : 0 < limit) (hr : Ends rest) :
    number (some limit) ((toString n).toList ++ rest) = some (.int n, rest) := by
  have hlength {m : ℕ} (hm : m < 10 ^ limit) : (Nat.toDigits 10 m).length ≤ limit :=
    (Nat.length_toDigits_le_iff (by decide) hlimit).mpr hm
  cases n with
  | ofNat m =>
    have htext : (toString (Int.ofNat m)).toList = Nat.toDigits 10 m := by
      show (toString m).toList = _
      rw [Nat.toString_eq_ofList_toDigits, String.toList_ofList]
    have hneg : (Nat.toDigits 10 m ++ rest).head? = some '-' ↔ false = true := by
      obtain ⟨c, t, ht⟩ := List.exists_cons_of_ne_nil (Nat.toDigits_ne_nil (b := 10) (n := m))
      have hc : c.isDigit = true := Nat.isDigit_of_mem_toDigits (b := 10) (n := m) (by decide) (by decide)
        (by rw [ht]; exact List.mem_cons_self)
      rw [ht]
      simp [isDigit_ne hc (d := '-') (by decide)]
    rw [htext, number_of_whole hneg (whole?_toDigits m hr) (hlength hn) hr, value_toDigits]
    rfl
  | negSucc m =>
    have htext : (toString (Int.negSucc m)).toList = '-' :: Nat.toDigits 10 (m + 1) := by
      show ("-" ++ toString (m + 1)).toList = _
      rw [Nat.toString_eq_ofList_toDigits]
      simp
    have hneg : ('-' :: (Nat.toDigits 10 (m + 1) ++ rest)).head? = some '-' ↔ true = true :=
      ⟨fun _ => rfl, fun _ => rfl⟩
    rw [htext, List.cons_append, number_of_whole hneg (whole?_toDigits (m + 1) hr) (hlength hn) hr,
      value_toDigits]
    rfl

end Json.Reader
end ModalEditing
