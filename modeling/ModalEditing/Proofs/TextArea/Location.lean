import ModalEditing.TextArea

namespace ModalEditing

namespace Text

theorem lines_cons {c : Char} (hc : c ≠ '\n') (t : Text) :
    ∃ l ls, lines t = l :: ls ∧ lines (c :: t) = (c :: l) :: ls := by
  obtain ⟨l, ls, h⟩ := List.exists_cons_of_ne_nil (lines_ne_nil t)
  refine ⟨l, ls, h, ?_⟩
  rw [lines]
  · rw [h]
  · exact fun hn => absurd hn hc

end Text

namespace Location

theorem eq_of {a b : Location} (hrow : a.row = b.row) (hcol : a.col = b.col) : a = b := by
  obtain ⟨r, c⟩ := a
  obtain ⟨r', c'⟩ := b
  exact congr (congrArg mk hrow) hcol

theorem before_iff {a b : Location} :
    a.before b = true ↔ a.row < b.row ∨ a.row = b.row ∧ a.col < b.col := by
  simp [before]

theorem before_eq_false_iff {a b : Location} :
    a.before b = false ↔ b.row < a.row ∨ a.row = b.row ∧ b.col ≤ a.col := by
  rw [← Bool.not_eq_true, before_iff]
  omega

theorem before_rowStart_iff {a : Location} {row : Nat} : a.before ⟨row, 0⟩ = true ↔ a.row < row := by
  simp [before_iff]

theorem before_self (a : Location) : a.before a = false :=
  before_eq_false_iff.mpr (.inr ⟨rfl, Nat.le_refl _⟩)

theorem before_trans {a b c : Location} (h : a.before b = true) (h' : b.before c = true) :
    a.before c = true := by
  rw [before_iff] at h h' ⊢
  omega

theorem before_asymm {a b : Location} (h : a.before b = true) : b.before a = false := by
  rw [before_iff] at h
  rw [before_eq_false_iff]
  omega

/-- Of two locations one is before the other. -/
theorem before_of_ne {a b : Location} (h : a ≠ b) : a.before b = !b.before a := by
  have hdiff : a.row ≠ b.row ∨ a.col ≠ b.col :=
    Decidable.byContradiction fun hsame => h (eq_of (by omega) (by omega))
  cases hba : b.before a with
  | true =>
    rw [before_iff] at hba
    exact before_eq_false_iff.mpr (by omega)
  | false =>
    rw [before_eq_false_iff] at hba
    exact before_iff.mpr (by omega)

/-- The row is one of the lines, and the column is in it or at its end. -/
structure Within (ls : List Text) (l : Location) : Prop where
  row : l.row < ls.length
  col : l.col ≤ (ls.getD l.row []).length

instance (ls : List Text) (l : Location) : Decidable (l.Within ls) :=
  decidable_of_iff (l.row < ls.length ∧ l.col ≤ (ls.getD l.row []).length)
    ⟨fun h => ⟨h.1, h.2⟩, fun h => ⟨h.row, h.col⟩⟩

theorem within_clampTo {ls : List Text} (h : ls ≠ []) (l : Location) : (clampTo ls l).Within ls := by
  have hlen := List.length_pos_iff.mpr h
  constructor
  · simp only [clampTo]
    omega
  · simp only [clampTo]
    omega

theorem Within.clampTo_eq {ls : List Text} {l : Location} (h : l.Within ls) : clampTo ls l = l := by
  have hrow : min l.row (ls.length - 1) = l.row := by
    have := h.row
    omega
  simp only [clampTo, hrow, Nat.min_eq_left h.col]

theorem within_start {ls : List Text} (h : ls ≠ []) : Within ls ⟨0, 0⟩ :=
  ⟨List.length_pos_iff.mpr h, Nat.zero_le _⟩

/-- Where a location is when a character is put before the text. -/
def advance (c : Char) (l : Location) : Location :=
  if c = '\n' then ⟨l.row + 1, l.col⟩ else if l.row = 0 then ⟨0, l.col + 1⟩ else l

theorem within_advance (c : Char) {t : Text} {l : Location} (h : l.Within (Text.lines t)) :
    (advance c l).Within (Text.lines (c :: t)) := by
  obtain ⟨row, col⟩ := l
  obtain ⟨hrow, hcol⟩ := h
  by_cases hc : c = '\n'
  · subst hc
    exact ⟨Nat.succ_lt_succ hrow, hcol⟩
  · obtain ⟨l', ls, ht, hl⟩ := Text.lines_cons hc t
    rw [ht] at hrow hcol
    rw [hl, advance, if_neg hc]
    cases row with
    | zero => exact ⟨hrow, Nat.succ_le_succ hcol⟩
    | succ row => exact ⟨hrow, hcol⟩

/-- Every location but the first lies behind the first character. -/
theorem Within.eq_advance {c : Char} {t : Text} {l : Location} (h : l.Within (Text.lines (c :: t))) :
    l = ⟨0, 0⟩ ∨ ∃ l', l'.Within (Text.lines t) ∧ l = advance c l' := by
  obtain ⟨row, col⟩ := l
  obtain ⟨hrow, hcol⟩ := h
  by_cases hc : c = '\n'
  · subst hc
    cases row with
    | zero =>
      left
      have hz : col = 0 := Nat.le_zero.mp hcol
      rw [hz]
    | succ row => exact .inr ⟨⟨row, col⟩, ⟨Nat.lt_of_succ_lt_succ hrow, hcol⟩, rfl⟩
  · obtain ⟨l', ls, ht, hl⟩ := Text.lines_cons hc t
    rw [hl] at hrow hcol
    cases row with
    | zero =>
      cases col with
      | zero => exact .inl rfl
      | succ col =>
        refine .inr ⟨⟨0, col⟩, ?_, by simp [advance, hc]⟩
        rw [ht]
        exact ⟨hrow, Nat.le_of_succ_le_succ hcol⟩
    | succ row =>
      refine .inr ⟨⟨row + 1, col⟩, ?_, by simp [advance, hc]⟩
      rw [ht]
      exact ⟨hrow, hcol⟩

theorem offsetIn_start (ls : List Text) : offsetIn ls ⟨0, 0⟩ = 0 := by
  cases ls <;> rfl

theorem offsetIn_advance (c : Char) (t : Text) (l : Location) :
    offsetIn (Text.lines (c :: t)) (advance c l) = offsetIn (Text.lines t) l + 1 := by
  obtain ⟨row, col⟩ := l
  by_cases hc : c = '\n'
  · subst hc
    simp only [advance, if_true, Text.lines, offsetIn, List.length_nil]
    omega
  · obtain ⟨l', ls, ht, hl⟩ := Text.lines_cons hc t
    rw [ht, hl, advance, if_neg hc]
    cases row with
    | zero => rfl
    | succ row =>
      simp only [Nat.succ_ne_zero, if_false, offsetIn, List.length_cons]
      omega

theorem offsetIn_row {ls : List Text} {row : Nat} (h : row < ls.length) (col : Nat) :
    offsetIn ls ⟨row, col⟩ = offsetIn ls ⟨row, 0⟩ + col := by
  induction ls generalizing row with
  | nil => exact absurd h (Nat.not_lt_zero row)
  | cons l ls ih =>
    cases row with
    | zero => exact (Nat.zero_add col).symm
    | succ row =>
      rw [offsetIn, offsetIn, ih (Nat.lt_of_succ_lt_succ h)]
      omega

/-- Reading order is the order of the indices. -/
theorem Within.offsetIn_lt {ls : List Text} {a b : Location} (ha : a.Within ls) (hb : b.Within ls)
    (h : a.before b = true) : offsetIn ls a < offsetIn ls b := by
  obtain ⟨r, c⟩ := a
  obtain ⟨r', c'⟩ := b
  have hlt : r < r' ∨ r = r' ∧ c < c' := before_iff.mp h
  rcases hlt with hr | ⟨rfl, hc⟩
  · clear h
    induction ls generalizing r r' with
    | nil => exact absurd ha.row (Nat.not_lt_zero r)
    | cons l ls ih =>
      obtain ⟨hrow, hcol⟩ := ha
      obtain ⟨hrow', hcol'⟩ := hb
      obtain ⟨r', rfl⟩ : ∃ n, r' = n + 1 := ⟨r' - 1, by omega⟩
      cases r with
      | zero =>
        have hc : c ≤ l.length := hcol
        simp only [offsetIn]
        omega
      | succ r =>
        have hlt := ih r ⟨Nat.lt_of_succ_lt_succ hrow, hcol⟩ r'
          ⟨Nat.lt_of_succ_lt_succ hrow', hcol'⟩ (Nat.lt_of_succ_lt_succ hr)
        simp only [offsetIn]
        omega
  · rw [offsetIn_row ha.row c, offsetIn_row ha.row c']
    omega

theorem Within.offsetIn_le {ls : List Text} {a b : Location} (ha : a.Within ls) (hb : b.Within ls)
    (h : b.before a = false) : offsetIn ls a ≤ offsetIn ls b := by
  by_cases hab : a.before b = true
  · exact Nat.le_of_lt (ha.offsetIn_lt hb hab)
  · -- Neither is before the other, so that they are the same.
    rw [before_eq_false_iff] at h
    rw [before_iff] at hab
    obtain rfl : a = b := eq_of (by omega) (by omega)
    exact Nat.le_refl _

/-- The earlier of two locations has the lower index. -/
theorem ordered_within {ls : List Text} {a b : Location} (ha : a.Within ls) (hb : b.Within ls) :
    (a.ordered b).1.Within ls ∧ (a.ordered b).2.Within ls ∧
      offsetIn ls (a.ordered b).1 ≤ offsetIn ls (a.ordered b).2 := by
  unfold ordered
  split
  · rename_i h
    exact ⟨hb, ha, Nat.le_of_lt (hb.offsetIn_lt ha h)⟩
  · rename_i h
    exact ⟨ha, hb, ha.offsetIn_le hb (by simpa using h)⟩

theorem ordered_not_before (a b : Location) : (a.ordered b).2.before (a.ordered b).1 = false := by
  unfold ordered
  split
  · rename_i h
    exact before_asymm h
  · rename_i h
    exact Bool.eq_false_iff.mpr h

def endOf : Text → Location
  | [] => ⟨0, 0⟩
  | c :: t => advance c (endOf t)

theorem endOf_eq (p : Text) :
    endOf p = ⟨(Text.lines p).length - 1, ((Text.lines p).getLast?.getD []).length⟩ := by
  induction p with
  | nil => rfl
  | cons c p ih =>
    rw [endOf, ih]
    by_cases hc : c = '\n'
    · subst hc
      obtain ⟨l, ls, h⟩ := List.exists_cons_of_ne_nil (Text.lines_ne_nil p)
      simp [advance, Text.lines, h, List.getLast?_cons]
    · obtain ⟨l, ls, ht, hl⟩ := Text.lines_cons hc p
      rw [ht, hl, advance, if_neg hc]
      cases ls with
      | nil => rfl
      | cons l' ls => rfl

theorem locate_eq_endOf (t : Text) (n : Nat) : TextArea.locate t n = endOf (t.take n) :=
  (endOf_eq (t.take n)).symm

/-- A beginning of a text ends within its lines, at the index that is its length. -/
theorem endOf_within (p u : Text) :
    (endOf p).Within (Text.lines (p ++ u)) ∧ offsetIn (Text.lines (p ++ u)) (endOf p) = p.length := by
  induction p with
  | nil => exact ⟨within_start (Text.lines_ne_nil u), offsetIn_start _⟩
  | cons c p ih =>
    refine ⟨within_advance c ih.1, ?_⟩
    rw [List.cons_append, endOf, offsetIn_advance, ih.2, List.length_cons]

theorem Within.endOf_take {t : Text} {l : Location} (h : l.Within (Text.lines t)) :
    endOf (t.take (offsetIn (Text.lines t) l)) = l := by
  induction t generalizing l with
  | nil =>
    obtain ⟨row, col⟩ := l
    obtain ⟨hrow, hcol⟩ := h
    obtain rfl : row = 0 := Nat.lt_one_iff.mp hrow
    obtain rfl : col = 0 := Nat.le_zero.mp hcol
    rfl
  | cons c t ih =>
    rcases h.eq_advance with rfl | ⟨l', hl, rfl⟩
    · rw [offsetIn_start]
      rfl
    · rw [offsetIn_advance, List.take_succ_cons, endOf, ih hl]

/-- Two locations part a text, the one with the lower index first. -/
theorem exists_parts {t : Text} {x y : Location} (hx : x.Within (Text.lines t))
    (hy : y.Within (Text.lines t)) (h : offsetIn (Text.lines t) x ≤ offsetIn (Text.lines t) y) :
    ∃ p c u, t = p ++ c ++ u ∧ x = endOf p ∧ y = endOf (p ++ c) := by
  have hx := hx.endOf_take
  have hy := hy.endOf_take
  generalize offsetIn (Text.lines t) x = m at h hx
  generalize offsetIn (Text.lines t) y = n at h hy
  have hparts : t.take m ++ (t.take n).drop m = t.take n := by
    rw [← Nat.min_eq_left h, ← List.take_take, Nat.min_eq_left h, List.take_append_drop]
  refine ⟨t.take m, (t.take n).drop m, t.drop n, ?_, hx.symm, ?_⟩
  · rw [hparts, List.take_append_drop]
  · rw [hparts, hy]

theorem endOf_row (p : Text) : (endOf p).row = p.count '\n' := by
  induction p with
  | nil => rfl
  | cons c p ih =>
    by_cases hc : c = '\n'
    · subst hc
      rw [List.count_cons_self, ← ih]
      rfl
    · rw [List.count_cons_of_ne hc, ← ih, endOf, advance, if_neg hc]
      split
      · rename_i h
        exact h.symm
      · rfl

/-- What stands between two locations of one row has no newline. -/
theorem newline_not_mem_of_row {p c : Text} (h : (endOf (p ++ c)).row = (endOf p).row) : '\n' ∉ c := by
  rw [endOf_row, endOf_row, List.count_append] at h
  exact List.count_eq_zero.mp (by omega)

theorem endOf_eq_start {p : Text} (h : endOf p = ⟨0, 0⟩) : p = [] := by
  have hp := (endOf_within p []).2
  rw [h, offsetIn_start] at hp
  exact List.length_eq_zero_iff.mp hp.symm

/-- A text is what comes before its last line, and the last line. -/
theorem exists_lastLine (p : Text) :
    ∃ q l, p = q ++ l ∧ '\n' ∉ l ∧ endOf q = ⟨(endOf p).row, 0⟩ ∧ l.length = (endOf p).col := by
  induction p with
  | nil => exact ⟨[], [], rfl, List.not_mem_nil, rfl, rfl⟩
  | cons c p ih =>
    obtain ⟨q, l, rfl, hl, hq, hlen⟩ := ih
    by_cases hc : c = '\n'
    · subst hc
      refine ⟨'\n' :: q, l, rfl, hl, ?_, ?_⟩
      · rw [endOf, hq]
        rfl
      · exact hlen
    · by_cases hrow : (endOf (q ++ l)).row = 0
      · -- All of it is one line.
        rw [hrow] at hq
        obtain rfl := endOf_eq_start hq
        refine ⟨[], c :: l, rfl, by simp [hl, Ne.symm hc], ?_, ?_⟩
        · rw [List.nil_append] at hrow
          simp [endOf, advance, hc, hrow]
        · rw [List.nil_append] at hrow hlen
          simp [endOf, advance, hc, hrow, hlen]
      · refine ⟨c :: q, l, rfl, hl, ?_, ?_⟩
        · simp [endOf, advance, hc, hrow, hq]
        · simp [endOf, advance, hc, hrow, hlen]

end Location
end ModalEditing
