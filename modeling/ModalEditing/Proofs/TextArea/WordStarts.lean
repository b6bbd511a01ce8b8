import ModalEditing.Proofs.TextArea.Words

namespace ModalEditing.Motion
open Text
variable {ls : List Text} {t : Text} {l s : Location} {i col : ℕ}

/-- Going back from a column over characters of one kind leads to the start of their run. -/
structure BackOver (t : Text) (blank : Bool) (col start : ℕ) : Prop where
  le : start ≤ col
  passed : ∀ i, start ≤ i → i < col → inWord t i = !blank
  stopped : 0 < start → inWord t (start - 1) = blank

theorem inWord_eq (h : i < t.length) : inWord t i = !isBlank t[i] := by
  rw [inWord, List.getElem?_eq_getElem h]
  rfl

theorem exists_backOver (blank : Bool) {p : Char → Bool} (hp : ∀ c, p c = true ↔ isBlank c = blank)
    (h : col ≤ t.length) :
    ∃ start, BackOver t blank col start ∧ (t.take col).reverse.dropWhile p = (t.take start).reverse := by
  induction col with
  | zero => exact ⟨0, ⟨Nat.le_refl _, by omega, by omega⟩, rfl⟩
  | succ col ih =>
    have hreverse : (t.take (col + 1)).reverse = t[col] :: (t.take col).reverse := by
      rw [← List.take_append_getElem h, List.reverse_append]
      rfl
    rw [hreverse]
    by_cases hc : isBlank t[col] = blank
    · obtain ⟨start, hback, htake⟩ := ih (Nat.le_of_succ_le h)
      refine ⟨start, ⟨Nat.le_succ_of_le hback.le, fun i hi hlt => ?_, hback.stopped⟩, ?_⟩
      · rcases Nat.lt_succ_iff_lt_or_eq.mp hlt with hlt | rfl
        · exact hback.passed i hi hlt
        · rw [inWord_eq h, hc]
      · rw [List.dropWhile_cons_of_pos ((hp _).mpr hc), htake]
    · refine ⟨col + 1, ⟨Nat.le_refl _, by omega, fun _ => ?_⟩, ?_⟩
      · rw [Nat.add_sub_cancel, inWord_eq h]
        exact (Bool.eq_not_of_ne (Ne.symm hc)).symm
      · rw [List.dropWhile_cons_of_neg fun hpos => hc ((hp _).mp hpos), hreverse]

/-- The column of the word that starts last before a column of a line, or the start of the line. -/
def prevStart (t : Text) (col : ℕ) : ℕ :=
  (((t.take col).reverse.dropWhile isBlank).dropWhile fun c => !isBlank c).length

/-- Back over blanks, and then over the word that is before them. -/
theorem exists_backOver_prevStart (h : col ≤ t.length) :
    ∃ stop, BackOver t true col stop ∧ BackOver t false stop (prevStart t col) := by
  obtain ⟨stop, hblanks, hstop⟩ := exists_backOver true (p := isBlank) (fun c => Iff.rfl) h
  have hlen : stop ≤ t.length := Nat.le_trans hblanks.le h
  obtain ⟨start, hword, hstart⟩ :=
    exists_backOver false (p := fun c => !isBlank c) (by simp) hlen
  have heq : prevStart t col = start := by
    rw [prevStart, hstop, hstart, List.length_reverse, List.length_take]
    exact Nat.min_eq_left (Nat.le_trans hword.le hlen)
  exact ⟨stop, hblanks, heq ▸ hword⟩

/-- Unless there is no word before the column, one starts where it leads, and before the column. -/
theorem startsWord_prevStart (h : col ≤ t.length) :
    prevStart t col = 0 ∨ prevStart t col < col ∧ startsWord t (prevStart t col) = true := by
  obtain ⟨stop, hblanks, hword⟩ := exists_backOver_prevStart h
  rcases Nat.eq_zero_or_pos stop with rfl | hpos
  · exact .inl (Nat.le_zero.mp hword.le)
  · right
    -- Before the blanks is a character of a word, so that the way back goes on over it.
    have hchar := hblanks.stopped hpos
    have hlt : prevStart t col < stop := by
      refine Nat.lt_of_le_of_ne hword.le fun heq => ?_
      have hnot := hword.stopped (heq ▸ hpos)
      rw [heq, hchar] at hnot
      exact Bool.false_ne_true hnot.symm
    refine ⟨Nat.lt_of_lt_of_le hlt hblanks.le,
      startsWord_iff.mpr ⟨hword.passed _ (Nat.le_refl _) hlt, ?_⟩⟩
    exact (Nat.eq_zero_or_pos _).imp_right hword.stopped

/-- No word starts on the way back. -/
theorem le_prevStart_of_startsWord (h : col ≤ t.length) (hs : startsWord t i = true) (hcol : i < col) :
    i ≤ prevStart t col := by
  obtain ⟨stop, hblanks, hword⟩ := exists_backOver_prevStart h
  obtain ⟨hin, hstart⟩ := startsWord_iff.mp hs
  by_contra hlt
  have hstop : i < stop := by
    by_contra hge
    rw [hblanks.passed i (Nat.not_lt.mp hge) hcol] at hin
    exact Bool.false_ne_true hin
  have hbefore := hstart.resolve_left (by omega)
  rw [hword.passed (i - 1) (by omega) (by omega)] at hbefore
  exact Bool.false_ne_true hbefore.symm

section Backward

/-- Where a step back begins: from the start of a row, at the end of the row above. -/
def backFrom (ls : List Text) (l : Location) : Location :=
  if l.col = 0 ∧ 0 < l.row then ⟨l.row - 1, (lineOf ls (l.row - 1)).length⟩ else l

theorem stepBackward_eq (ls : List Text) (l : Location) : stepBackward ls l =
    ⟨(backFrom ls l).row, prevStart (lineOf ls (backFrom ls l).row) (backFrom ls l).col⟩ := rfl

theorem backFrom_within (h : l.Within ls) : (backFrom ls l).Within ls := by
  unfold backFrom
  split_ifs
  · exact ⟨Nat.lt_of_le_of_lt (Nat.sub_le _ _) h.row, Nat.le_refl _⟩
  · exact h

/-- A cursor may stop on its way back at the start of a word or of a row. -/
def stopsBackward (ls : List Text) (l s : Location) : Bool :=
  s.before l && (s.col = 0 || startsWord (lineOf ls s.row) s.col)

def backwardStops (ls : List Text) (l : Location) : List Location :=
  (Location.all ls).reverse.filter (stopsBackward ls l)

theorem stopsBackward_iff : stopsBackward ls l s = true ↔
    s.before l = true ∧ (s.col = 0 ∨ startsWord (lineOf ls s.row) s.col = true) := by
  simp only [stopsBackward, Bool.and_eq_true, Bool.or_eq_true, decide_eq_true_iff]

theorem mem_backwardStops : s ∈ backwardStops ls l ↔ s.Within ls ∧ s.before l = true ∧
    (s.col = 0 ∨ startsWord (lineOf ls s.row) s.col = true) := by
  rw [backwardStops, List.mem_filter, List.mem_reverse, Location.mem_all, stopsBackward_iff]

theorem backwardStops_start (ls : List Text) : backwardStops ls ⟨0, 0⟩ = [] := by
  refine List.filter_eq_nil_iff.mpr fun s _ hs => ?_
  have hlt := Location.before_iff.mp (stopsBackward_iff.mp hs).1
  simp at hlt

/-- What is before a location is in the row that a step back begins in, or in a row above. -/
theorem before_backFrom (ls : List Text) (hs : s.before l = true) :
    s.row < (backFrom ls l).row ∨ s.row = (backFrom ls l).row ∧
      (s.col < (backFrom ls l).col ∨ (backFrom ls l).col = (lineOf ls s.row).length) := by
  have hlt := Location.before_iff.mp hs
  unfold backFrom
  split_ifs with hstart
  · simp only
    rcases Nat.lt_or_ge s.row (l.row - 1) with hrow | hrow
    · exact .inl hrow
    · have hsame : s.row = l.row - 1 := by omega
      exact .inr ⟨hsame, .inr (by rw [hsame])⟩
  · exact hlt.imp_right fun h => ⟨h.1, .inl h.2⟩

theorem stepBackward_before (h : l.Within ls) (hne : l ≠ ⟨0, 0⟩) : (stepBackward ls l).before l = true := by
  have hfrom := backFrom_within h
  rw [stepBackward_eq, Location.before_iff]
  by_cases hstart : l.col = 0 ∧ 0 < l.row
  · rw [backFrom, if_pos hstart]
    exact .inl (Nat.sub_lt hstart.2 Nat.one_pos)
  · rw [backFrom, if_neg hstart]
    have hpos : 0 < l.col := by
      refine Nat.pos_of_ne_zero fun hcol => hne (Location.eq_of ?_ hcol)
      simp only
      omega
    refine .inr ⟨rfl, ?_⟩
    rcases startsWord_prevStart (t := lineOf ls l.row) h.col with hzero | ⟨hlt, -⟩
    · simp only [hzero]
      exact hpos
    · exact hlt

/-- No stop before a location is behind the one that a step leads to. -/
theorem stepBackward_last (h : l.Within ls) (hs : stopsBackward ls l s = true)
    (hother : s ≠ stepBackward ls l) :
    s.before (stepBackward ls l) = true := by
  have hfrom := backFrom_within h
  obtain ⟨hbefore, hstart⟩ := stopsBackward_iff.mp hs
  rw [Location.before_of_ne hother, Bool.not_eq_true', Location.before_eq_false_iff, stepBackward_eq]
  rcases before_backFrom ls hbefore with hrow | ⟨hrow, hcol⟩
  · exact .inl hrow
  · refine .inr ⟨hrow.symm, ?_⟩
    rcases hstart with hzero | hstart
    · rw [hzero]
      exact Nat.zero_le _
    · have hlt : s.col < (backFrom ls l).col := by
        rcases hcol with hlt | hend
        · exact hlt
        · rw [hend]
          exact lt_of_inWord (startsWord_iff.mp hstart).1
      rw [hrow] at hstart
      exact le_prevStart_of_startsWord hfrom.col hstart hlt

theorem backwardStops_step (h : l.Within ls) :
    backwardStops ls l = stepBackward ls l :: backwardStops ls (stepBackward ls l) ∨
      backwardStops ls l = [] ∧ stepBackward ls l = ⟨0, 0⟩ := by
  by_cases hne : l = ⟨0, 0⟩
  · subst hne
    exact .inr ⟨backwardStops_start ls, rfl⟩
  · left
    have hlt := stepBackward_before h hne
    have hstop : stopsBackward ls l (stepBackward ls l) = true := by
      refine stopsBackward_iff.mpr ⟨hlt, ?_⟩
      exact (startsWord_prevStart (backFrom_within h).col).imp_right fun hstart => hstart.2
    refine Location.filter_all_reverse_eq_cons (within_stepBackward h) hstop
      (fun s _ => stepBackward_last h) fun s _ => ?_
    rw [stopsBackward_iff, stopsBackward_iff]
    constructor
    · rintro ⟨hbefore, hstart⟩
      exact ⟨⟨Location.before_trans hbefore hlt, hstart⟩, hbefore⟩
    · rintro ⟨⟨-, hstart⟩, hbefore⟩
      exact ⟨hbefore, hstart⟩

/-- A count of `n` leads to the `n`-th of the stops before the location, or past the first row's start
to that start. -/
theorem wordBackward_target (h : l.Within ls) {n : ℕ} (hn : 0 < n) :
    wordBackward.target ls l n = (backwardStops ls l).getD (n - 1) ⟨0, 0⟩ := by
  obtain ⟨n, rfl⟩ := Nat.exists_eq_add_one_of_ne_zero hn.ne'
  exact iterate_stops (P := Location.Within ls) (fun _ => within_stepBackward)
    (fun _ => backwardStops_step) (backwardStops_start ls) h n

end Backward

end ModalEditing.Motion
