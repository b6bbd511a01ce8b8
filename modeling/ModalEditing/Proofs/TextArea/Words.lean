import Mathlib.Data.List.TakeWhile
import ModalEditing.Proofs.TextArea.Stops

namespace ModalEditing

namespace Text
variable {t : Text} {i k : ℕ} {blank : Bool}

def inWord (t : Text) (i : ℕ) : Bool := t[i]?.any (!isBlank ·)

/-- A word starts at an index: at the start of the text, or behind a blank. -/
def startsWord (t : Text) (i : ℕ) : Bool := inWord t i && (i = 0 || !inWord t (i - 1))

/-- A word ends at an index: with the last character of the text, or before a blank. -/
def endsWord (t : Text) (i : ℕ) : Bool := inWord t i && !inWord t (i + 1)

theorem lt_of_inWord (h : inWord t i = true) : i < t.length := by
  by_contra hle
  rw [inWord, List.getElem?_eq_none (Nat.not_lt.mp hle)] at h
  exact Bool.false_ne_true h

theorem not_inWord_of_le (h : t.length ≤ i) : inWord t i = false := by
  rw [inWord, List.getElem?_eq_none h]
  rfl

theorem inWord_drop (t : Text) (k i : ℕ) : inWord (t.drop k) i = inWord t (k + i) := by
  rw [inWord, inWord, List.getElem?_drop]

theorem startsWord_iff :
    startsWord t i = true ↔ inWord t i = true ∧ (i = 0 ∨ inWord t (i - 1) = false) := by
  simp [startsWord]

theorem endsWord_iff : endsWord t i = true ↔ inWord t i = true ∧ inWord t (i + 1) = false := by
  simp [endsWord]

end Text

namespace Motion
open Text
variable {t : Text} {i col : ℕ} {blank : Bool}

theorem run_cons (blank : Bool) (c : Char) (t : Text) :
    run blank (c :: t) = if isBlank c = blank then run blank t + 1 else 0 := by
  rw [run, List.takeWhile_cons]
  split_ifs <;> simp_all [run]

theorem inWord_of_lt_run (h : i < run blank t) : inWord t i = !blank := by
  induction t generalizing i with
  | nil => exact absurd h (Nat.not_lt_zero i)
  | cons c t ih =>
    rw [run_cons] at h
    split_ifs at h with hc
    · cases i with
      | zero => simp [inWord, hc]
      | succ i => exact ih (Nat.lt_of_succ_lt_succ h)
    · exact absurd h (Nat.not_lt_zero i)

theorem inWord_run (h : run blank t < t.length) : inWord t (run blank t) = blank := by
  induction t with
  | nil => exact absurd h (Nat.not_lt_zero _)
  | cons c t ih =>
    rw [run_cons] at h ⊢
    split_ifs at h ⊢ with hc
    · exact ih (Nat.lt_of_succ_lt_succ h)
    · simp only [inWord, List.getElem?_cons_zero, Option.any_some]
      cases blank <;> simp_all

/-- What a run passes over is all of one kind. -/
theorem inWord_of_passed (hcol : col ≤ i) (h : i < col + run blank (t.drop col)) :
    inWord t i = !blank := by
  obtain ⟨k, rfl⟩ := Nat.exists_eq_add_of_le hcol
  rw [← inWord_drop]
  exact inWord_of_lt_run (Nat.lt_of_add_lt_add_left h)

/-- What a run stops at is of the other kind. -/
theorem inWord_of_stopped (h : col + run blank (t.drop col) < t.length) :
    inWord t (col + run blank (t.drop col)) = blank := by
  rw [← inWord_drop]
  refine inWord_run ?_
  rw [List.length_drop]
  omega

theorem not_inWord_of_run (t : Text) (col : ℕ) :
    inWord t (col + run false (t.drop col)) = false := by
  by_cases h : col + run false (t.drop col) < t.length
  · exact inWord_of_stopped h
  · exact not_inWord_of_le (Nat.not_lt.mp h)

/-- The column of the next word that starts behind a column of a line, or the end of the line. -/
def nextStart (t : Text) (col : ℕ) : ℕ :=
  col + run false (t.drop col) + run true (t.drop (col + run false (t.drop col)))

theorem le_nextStart (t : Text) (col : ℕ) : col ≤ nextStart t col :=
  Nat.le_trans (Nat.le_add_right _ _) (Nat.le_add_right _ _)

theorem nextStart_le (h : col ≤ t.length) : nextStart t col ≤ t.length :=
  add_run_le (add_run_le h false) true

theorem startsWord_nextStart (h : nextStart t col < t.length) :
    col < nextStart t col ∧ startsWord t (nextStart t col) = true := by
  have hpast := not_inWord_of_run t col
  have hword : inWord t (nextStart t col) = true := inWord_of_stopped h
  -- The blanks passed over are at least one, since what is behind the first word is no word.
  have hlt : col + run false (t.drop col) < nextStart t col := by
    refine Nat.lt_of_le_of_ne (Nat.le_add_right _ _) fun heq => ?_
    rw [heq, hword] at hpast
    exact Bool.false_ne_true hpast.symm
  have hblank : inWord t (nextStart t col - 1) = false :=
    inWord_of_passed (Nat.le_sub_one_of_lt hlt) (Nat.sub_one_lt_of_lt hlt)
  exact ⟨Nat.lt_of_le_of_lt (Nat.le_add_right _ _) hlt, startsWord_iff.mpr ⟨hword, .inr hblank⟩⟩

/-- No word starts on the way to the next one that does. -/
theorem nextStart_le_of_startsWord (h : startsWord t i = true) (hcol : col < i) :
    nextStart t col ≤ i := by
  by_contra hlt
  obtain ⟨hword, hstart⟩ := startsWord_iff.mp h
  have hbefore := hstart.resolve_left (Nat.ne_of_gt (Nat.zero_lt_of_lt hcol))
  by_cases hrest : i < col + run false (t.drop col)
  · have hsame : inWord t (i - 1) = !false :=
      inWord_of_passed (Nat.le_sub_one_of_lt hcol) (by omega)
    exact Bool.false_ne_true (hbefore.symm.trans hsame)
  · have hblank : inWord t i = false := inWord_of_passed (Nat.not_lt.mp hrest) (Nat.not_le.mp hlt)
    exact Bool.false_ne_true (hblank.symm.trans hword)

theorem indent_eq_run (t : Text) : indent t = run true t := by
  simp [indent, run]

theorem startsWord_indent (h : indent t < t.length) : startsWord t (indent t) = true := by
  rw [indent_eq_run] at h ⊢
  refine startsWord_iff.mpr ⟨inWord_run h, ?_⟩
  rcases Nat.eq_zero_or_pos (run true t) with hzero | hpos
  · exact .inl hzero
  · exact .inr (inWord_of_lt_run (Nat.sub_one_lt_of_lt hpos))

theorem indent_le_of_startsWord (h : startsWord t i = true) : indent t ≤ i := by
  by_contra hlt
  rw [indent_eq_run] at hlt
  have hblank : inWord t i = false := inWord_of_lt_run (Nat.not_le.mp hlt)
  exact Bool.false_ne_true (hblank.symm.trans (startsWord_iff.mp h).1)

theorem indent_eq_length_iff : indent t = t.length ↔ t.all isBlank = true := by
  have hstart : t.takeWhile isBlank <+: t := List.takeWhile_prefix isBlank
  rw [List.all_eq_true, ← List.takeWhile_eq_self_iff]
  exact ⟨hstart.eq_of_length, congrArg List.length⟩

section Forward
variable {ls : List Text} {l s : Location}

def lastEnd (ls : List Text) : Location := ⟨ls.length - 1, (lineOf ls (ls.length - 1)).length⟩

/-- A cursor may stop on its way on from one word to the next where a word starts behind it, and at the
end of a row below it in which there is none. -/
def stopsForward (ls : List Text) (l s : Location) : Bool :=
  l.before s && startsWord (lineOf ls s.row) s.col ||
    (l.row < s.row && (lineOf ls s.row).all isBlank && s.col = (lineOf ls s.row).length)

def forwardStops (ls : List Text) (l : Location) : List Location :=
  (Location.all ls).filter (stopsForward ls l)

theorem stopsForward_iff : stopsForward ls l s = true ↔
    l.before s = true ∧ startsWord (lineOf ls s.row) s.col = true ∨
      l.row < s.row ∧ (lineOf ls s.row).all isBlank = true ∧ s.col = (lineOf ls s.row).length := by
  simp only [stopsForward, Bool.or_eq_true, Bool.and_eq_true, decide_eq_true_iff, and_assoc]

theorem mem_forwardStops : s ∈ forwardStops ls l ↔ s.Within ls ∧
    (l.before s = true ∧ startsWord (lineOf ls s.row) s.col = true ∨
      l.row < s.row ∧ (lineOf ls s.row).all isBlank = true ∧ s.col = (lineOf ls s.row).length) := by
  rw [forwardStops, List.mem_filter, Location.mem_all, stopsForward_iff]

/-- From the first stop on the others are left, if that stop is at the end of its row or no row behind it
is without words. -/
theorem forwardStops_eq_cons {f : Location} (hf : f.Within ls) (hstop : stopsForward ls l f = true)
    (hfirst : ∀ s, stopsForward ls l s = true → s ≠ f → f.before s = true)
    (hrow : ∀ s, s.row = f.row → l.row < s.row → (lineOf ls s.row).all isBlank = true →
      s.col = (lineOf ls s.row).length → s = f) :
    forwardStops ls l = f :: forwardStops ls f := by
  have hlt : l.before f = true := by
    rcases stopsForward_iff.mp hstop with ⟨hlt, -⟩ | ⟨hlt, -⟩
    · exact hlt
    · exact Location.before_iff.mpr (.inl hlt)
  refine Location.filter_all_eq_cons hf hstop (fun s _ => hfirst s) fun s _ => ?_
  rw [stopsForward_iff, stopsForward_iff]
  constructor
  · rintro (⟨hbehind, hstart⟩ | ⟨hbelow, hblank⟩)
    · exact ⟨.inl ⟨Location.before_trans hlt hbehind, hstart⟩, hbehind⟩
    · have hbehind := Location.before_iff.mpr (.inl hbelow)
      rw [Location.before_iff] at hlt
      exact ⟨.inr ⟨by omega, hblank⟩, hbehind⟩
  · rintro ⟨⟨-, hstart⟩ | ⟨hbelow, hblank, hcol⟩, hbehind⟩
    · exact .inl ⟨hbehind, hstart⟩
    · have hne : s.row ≠ f.row := by
        intro hsame
        have hsf := hrow s hsame hbelow hblank hcol
        rw [hsf, Location.before_self] at hbehind
        exact Bool.false_ne_true hbehind
      rw [Location.before_iff] at hbehind
      exact .inr ⟨by omega, hblank, hcol⟩

/-- A step leads to the next word of the row, or to where the row below begins. -/
theorem stepForward_cases (ls : List Text) (l : Location) :
    (nextStart (lineOf ls l.row) l.col < (lineOf ls l.row).length ∨ ls.length ≤ l.row + 1) ∧
        stepForward ls l = ⟨l.row, nextStart (lineOf ls l.row) l.col⟩ ∨
      (lineOf ls l.row).length ≤ nextStart (lineOf ls l.row) l.col ∧ l.row + 1 < ls.length ∧
        stepForward ls l = ⟨l.row + 1, indent (lineOf ls (l.row + 1))⟩ := by
  have hstep : stepForward ls l =
      if (lineOf ls l.row).length ≤ nextStart (lineOf ls l.row) l.col && l.row + 1 < ls.length then
        ⟨l.row + 1, indent (lineOf ls (l.row + 1))⟩
      else ⟨l.row, nextStart (lineOf ls l.row) l.col⟩ := rfl
  rw [hstep]
  split_ifs with h
  · rw [Bool.and_eq_true, decide_eq_true_iff, decide_eq_true_iff] at h
    exact .inr ⟨h.1, h.2, rfl⟩
  · rw [Bool.and_eq_true, decide_eq_true_iff, decide_eq_true_iff] at h
    exact .inl ⟨by omega, rfl⟩

/-- A word that starts behind a location is in a row below it, or in its row the next word or behind
that. -/
theorem row_of_startsWord (hlt : l.before s = true) (hs : startsWord (lineOf ls s.row) s.col = true) :
    l.row < s.row ∨ s.row = l.row ∧ nextStart (lineOf ls l.row) l.col ≤ s.col ∧
      s.col < (lineOf ls l.row).length := by
  rcases Location.before_iff.mp hlt with hbelow | ⟨hrow, hcol⟩
  · exact .inl hbelow
  · rw [← hrow] at hs
    exact .inr ⟨hrow.symm, nextStart_le_of_startsWord hs hcol, lt_of_inWord (startsWord_iff.mp hs).1⟩

/-- In the last row, with no more words, there is nothing to stop at. -/
theorem forwardStops_eq_nil (hlast : ls.length ≤ l.row + 1)
    (hword : (lineOf ls l.row).length ≤ nextStart (lineOf ls l.row) l.col) :
    forwardStops ls l = [] := by
  refine List.filter_eq_nil_iff.mpr fun s hs hstop => ?_
  have hs := (Location.mem_all.mp hs).row
  rcases stopsForward_iff.mp hstop with ⟨hbehind, hstart⟩ | ⟨hbelow, -⟩
  · rcases row_of_startsWord hbehind hstart with hbelow | ⟨-, hle, hlt⟩
    · omega
    · omega
  · omega

/-- With a word behind the location in its row, its start is the first to stop at. -/
theorem forwardStops_of_word (hrow : l.row < ls.length)
    (hword : nextStart (lineOf ls l.row) l.col < (lineOf ls l.row).length) :
    forwardStops ls l = ⟨l.row, nextStart (lineOf ls l.row) l.col⟩
      :: forwardStops ls ⟨l.row, nextStart (lineOf ls l.row) l.col⟩ := by
  obtain ⟨hlt, hstart⟩ := startsWord_nextStart hword
  refine forwardStops_eq_cons ⟨hrow, Nat.le_of_lt hword⟩
    (stopsForward_iff.mpr (.inl ⟨Location.before_iff.mpr (.inr ⟨rfl, hlt⟩), hstart⟩)) ?_
    fun s hsame hbelow => absurd hbelow (hsame ▸ Nat.lt_irrefl _)
  intro s hs hne
  rw [Location.before_iff]
  rcases stopsForward_iff.mp hs with ⟨hbehind, hs⟩ | ⟨hbelow, -⟩
  · rcases row_of_startsWord hbehind hs with hbelow | ⟨hsame, hle, -⟩
    · exact .inl hbelow
    · exact .inr ⟨hsame.symm, Nat.lt_of_le_of_ne hle fun hcol => hne (Location.eq_of hsame hcol.symm)⟩
  · exact .inl hbelow

/-- A row without words begins at its end. -/
theorem eq_indent_of_blank (hall : (lineOf ls s.row).all isBlank = true)
    (hcol : s.col = (lineOf ls s.row).length) : s = ⟨s.row, indent (lineOf ls s.row)⟩ :=
  Location.eq_of rfl (hcol.trans (indent_eq_length_iff.mpr hall).symm)

/-- With no more words in its row, the first to stop at is where the row below begins. -/
theorem forwardStops_of_row (hnext : l.row + 1 < ls.length)
    (hend : (lineOf ls l.row).length ≤ nextStart (lineOf ls l.row) l.col) :
    forwardStops ls l = ⟨l.row + 1, indent (lineOf ls (l.row + 1))⟩
      :: forwardStops ls ⟨l.row + 1, indent (lineOf ls (l.row + 1))⟩ := by
  have hle : indent (lineOf ls (l.row + 1)) ≤ (lineOf ls (l.row + 1)).length := indent_le_length _
  refine forwardStops_eq_cons ⟨hnext, hle⟩ (stopsForward_iff.mpr ?_) ?_ fun s hsame _ hall hcol => ?_
  · rcases Nat.lt_or_eq_of_le hle with hlt | heq
    · exact .inl ⟨Location.before_iff.mpr (.inl (Nat.lt_succ_self _)), startsWord_indent hlt⟩
    · exact .inr ⟨Nat.lt_succ_self _, indent_eq_length_iff.mp heq, heq⟩
  · intro s hs hne
    rw [Location.before_iff]
    have hbelow : l.row < s.row := by
      rcases stopsForward_iff.mp hs with ⟨hbehind, hstart⟩ | ⟨hbelow, -⟩
      · rcases row_of_startsWord hbehind hstart with hbelow | ⟨-, hge, hlt⟩
        · exact hbelow
        · omega
      · exact hbelow
    rcases Nat.lt_or_eq_of_le (Nat.succ_le_of_lt hbelow) with hlt | hsame
    · exact .inl hlt
    · refine .inr ⟨hsame, Nat.lt_of_le_of_ne ?_ fun hcol => hne (Location.eq_of hsame.symm hcol.symm)⟩
      rcases stopsForward_iff.mp hs with ⟨-, hstart⟩ | ⟨-, -, hcol⟩
      · rw [← hsame] at hstart
        exact indent_le_of_startsWord hstart
      · rw [hcol, ← hsame]
        exact hle
  · have hs := eq_indent_of_blank hall hcol
    rw [hsame] at hs
    exact hs

/-- The location that a step leads to is the first to stop at, and from it on the others are left; or
there is none, and it leads to the end of the last line. -/
theorem forwardStops_step (h : l.Within ls) :
    forwardStops ls l = stepForward ls l :: forwardStops ls (stepForward ls l) ∨
      forwardStops ls l = [] ∧ stepForward ls l = lastEnd ls := by
  have hrow := h.row
  rcases stepForward_cases ls l with ⟨hhere, hto⟩ | ⟨hend, hnext, hto⟩
  · rw [hto]
    by_cases hword : nextStart (lineOf ls l.row) l.col < (lineOf ls l.row).length
    · exact .inl (forwardStops_of_word hrow hword)
    · right
      have hend := Nat.not_lt.mp hword
      have hlast : ls.length ≤ l.row + 1 := hhere.resolve_left hword
      have hrow : l.row = ls.length - 1 := by omega
      refine ⟨forwardStops_eq_nil hlast hend, ?_⟩
      rw [lastEnd, ← hrow]
      exact Location.eq_of rfl (Nat.le_antisymm (nextStart_le h.col) hend)
  · rw [hto]
    exact .inl (forwardStops_of_row hnext hend)

theorem forwardStops_lastEnd (ls : List Text) : forwardStops ls (lastEnd ls) = [] :=
  forwardStops_eq_nil (by simp only [lastEnd]; omega) (le_nextStart _ _)

theorem iterate_stepForward (h : l.Within ls) (n : ℕ) :
    iterate (stepForward ls) (n + 1) l = (forwardStops ls l).getD n (lastEnd ls) :=
  iterate_stops (P := Location.Within ls) (fun _ => within_stepForward) (fun _ => forwardStops_step)
    (forwardStops_lastEnd ls) h n

/-- A count of `n` leads to the `n`-th of the stops, or past the last of them to the end of the text. -/
theorem wordForward_target (h : l.Within ls) {n : ℕ} (hn : 0 < n) :
    wordForward.target ls l n = (forwardStops ls l).getD (n - 1) (lastEnd ls) := by
  obtain ⟨n, rfl⟩ := Nat.exists_eq_add_one_of_ne_zero hn.ne'
  exact iterate_stepForward h n

end Forward

end Motion
end ModalEditing
