import Mathlib.Data.List.Induction
import Mathlib.Data.List.TakeWhile
import Mathlib.Data.Nat.Digits.Defs
import ModalEditing.Number.Whole

namespace ModalEditing.Number

/-- The number that decimal digits stand for; the last one counts least. -/
def decimal (t : Text) : ℕ := Nat.ofDigits 10 (t.reverse.map fun c => c.toNat - '0'.toNat)

/-- A count as it is typed: nothing, or a digit other than zero and then any digits. -/
def IsCount (t : Text) : Prop := (∀ c ∈ t, c.isDigit = true) ∧ t.head? ≠ some '0'

theorem isDigit_iff (c : Char) : c.isDigit = true ↔ 48 ≤ c.toNat ∧ c.toNat ≤ 57 := by
  simp only [Char.isDigit, Bool.and_eq_true, decide_eq_true_eq, ge_iff_le, UInt32.le_iff_toNat_le]
  rfl

theorem isDigit_ne {c d : Char} (hc : c.isDigit = true) (hd : d.isDigit = false) : c ≠ d := by
  rintro rfl
  simp [hc] at hd

theorem isSpace_eq_false {c : Char} (hc : c.isDigit = true) : isSpace c = false := by
  have hn := (isDigit_iff c).mp hc
  have hs : c ≠ ' ' := isDigit_ne hc (by decide)
  simp only [isSpace, hs, decide_false, Bool.false_or, Bool.and_eq_false_iff, decide_eq_false_iff_not]
  omega

theorem plain_digits {t : Text} (hd : ∀ c ∈ t, c.isDigit = true) : plain t = t := by
  have hall : t.all (·.toNat < 0x80) = true := by
    rw [List.all_eq_true]
    intro c hc
    have hn := (isDigit_iff c).mp (hd c hc)
    exact decide_eq_true (by omega)
  rw [plain, if_pos hall]

theorem underscoresPart_digits {t : Text} (hd : ∀ c ∈ t, c.isDigit = true) (after : Bool) :
    underscoresPart after t = (after || !t.isEmpty) := by
  induction t generalizing after with
  | nil => simp [underscoresPart]
  | cons c t ih =>
    have hc : c ≠ '_' := isDigit_ne (hd c List.mem_cons_self) (by decide)
    have ht : ∀ c ∈ t, c.isDigit = true := fun x hx => hd x (List.mem_cons_of_mem c hx)
    simp [underscoresPart, hc, ih ht]

theorem value_append (t : Text) {c : Char} (hc : c.isDigit = true) :
    value (t ++ [c]) = 10 * value t + (c.toNat - '0'.toNat) := by
  simp [value, List.foldl_append, hc]

theorem decimal_append (t : Text) (c : Char) :
    decimal (t ++ [c]) = 10 * decimal t + (c.toNat - '0'.toNat) := by
  simp only [decimal, List.reverse_append, List.reverse_singleton, List.singleton_append,
    List.map_cons, Nat.ofDigits_cons]
  exact Nat.add_comm _ _

theorem value_eq_decimal {t : Text} (hd : ∀ c ∈ t, c.isDigit = true) : value t = decimal t := by
  induction t using List.reverseRecOn with
  | nil => rfl
  | append_singleton t c ih =>
    rw [value_append t (hd c (by simp)), decimal_append, ih (fun x hx => hd x (by simp [hx]))]

/-- Reading digits yields their number, unless there are too many of them. -/
theorem read_digits {t : Text} (hne : t ≠ []) (hd : ∀ c ∈ t, c.isDigit = true) :
    read (String.ofList t) =
      if digitLimit < t.length then .error (.tooLong t.length) else .ok (decimal t : ℤ) := by
  obtain ⟨c, rest, rfl⟩ := List.exists_cons_of_ne_nil hne
  have hc : c.isDigit = true := hd c List.mem_cons_self
  -- Digits are no blanks, signs or underscores, so nothing is cut off and all of them are counted.
  have hspace : (c :: rest).dropWhile isSpace = c :: rest := by
    simp [isSpace_eq_false hc]
  have hminus : c ≠ '-' := isDigit_ne hc (by decide)
  have hplus : c ≠ '+' := isDigit_ne hc (by decide)
  have hbody : (c :: rest).takeWhile (fun c => c.isDigit || c = '_') = c :: rest :=
    List.takeWhile_eq_self_iff.mpr (fun x hx => by simp [hd x hx])
  have hcount : (c :: rest).countP Char.isDigit = (c :: rest).length :=
    List.countP_eq_length.mpr hd
  simp only [read, String.toList_ofList, plain_digits hd, hspace, List.head?_cons, Option.some.injEq,
    hminus, hplus, decide_false, Bool.or_self, Bool.false_eq_true, if_false, hbody, hcount,
    underscoresPart_digits hd, value_eq_decimal hd, List.drop_length, List.all_nil]
  simp

/-- A count that was begun is no zero. -/
theorem decimal_pos {t : Text} (ht : IsCount t) (hne : t ≠ []) : 0 < decimal t := by
  obtain ⟨c, rest, rfl⟩ := List.exists_cons_of_ne_nil hne
  have hn := (isDigit_iff c).mp (ht.1 c List.mem_cons_self)
  have hz : c ≠ '0' := by simpa using ht.2
  have hv : c.toNat ≠ '0'.toNat := fun h => hz (Char.toNat_inj.mp h)
  have hpos : 0 < c.toNat - '0'.toNat := by
    change c.toNat ≠ 48 at hv
    change 0 < c.toNat - 48
    omega
  simp only [decimal, List.reverse_cons, List.map_append, List.map_singleton, Nat.ofDigits_append,
    Nat.ofDigits_singleton]
  positivity

end ModalEditing.Number
