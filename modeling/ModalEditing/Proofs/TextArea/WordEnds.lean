import Mathlib.Data.List.GetD
import ModalEditing.Proofs.TextArea.Words

namespace ModalEditing.Motion
open Text
variable {ls : List Text} {t : Text} {l s : Location} {i row col : ℕ}

/-- When the blanks from a column on reach the end of the line, what of its words there is comes before
it. -/
theorem lt_of_blanks (hend : t.length ≤ col + run true (t.drop col)) (h : inWord t i = true) : i < col := by
  by_contra hle
  have hblank : inWord t i = false :=
    inWord_of_passed (Nat.not_lt.mp hle) (Nat.lt_of_lt_of_le (lt_of_inWord h) hend)
  exact Bool.false_ne_true (hblank.symm.trans h)

def endOfWord (t : Text) (col : ℕ) : ℕ := col + run false (t.drop (col + 1))

theorem endsWord_endOfWord (h : inWord t col = true) : endsWord t (endOfWord t col) = true := by
  refine endsWord_iff.mpr ⟨?_, ?_⟩
  · rcases Nat.eq_zero_or_pos (run false (t.drop (col + 1))) with hzero | hpos
    · rwa [endOfWord, hzero]
    · exact inWord_of_passed (Nat.add_le_add_left hpos col) (Nat.add_lt_add_right (Nat.lt_succ_self col) _)
  · have hpast := not_inWord_of_run t (col + 1)
    rwa [Nat.add_right_comm] at hpast

/-- No word ends between a character of a word and the end of that word. -/
theorem endOfWord_le (h : endsWord t i = true) (hcol : col ≤ i) : endOfWord t col ≤ i := by
  by_contra hlt
  have hshort : i + 1 < col + 1 + run false (t.drop (col + 1)) := by
    rw [Nat.add_right_comm]
    exact Nat.succ_lt_succ (Nat.not_le.mp hlt)
  have hnext : inWord t (i + 1) = !false := inWord_of_passed (Nat.succ_le_succ hcol) hshort
  exact Bool.false_ne_true ((endsWord_iff.mp h).2.symm.trans hnext)

/-- There is a character of a word at a location. -/
def onWord (ls : List Text) (s : Location) : Bool := inWord (lineOf ls s.row) s.col

theorem row_lt_of_onWord (h : onWord ls s = true) : s.row < ls.length := by
  by_contra hle
  rw [onWord, lineOf, List.getD_eq_default _ _ (Nat.not_lt.mp hle)] at h
  exact Bool.false_ne_true h

/-- The first character of a word that is not before a location. -/
structure FirstOnWord (ls : List Text) (l w : Location) : Prop where
  onWord : onWord ls w = true
  not_before : w.before l = false
  first : ∀ s, Motion.onWord ls s = true → s.before l = false → s.before w = false

theorem firstOnWord_of_run (h : col + run true ((lineOf ls row).drop col) < (lineOf ls row).length) :
    FirstOnWord ls ⟨row, col⟩ ⟨row, col + run true ((lineOf ls row).drop col)⟩ where
  onWord := inWord_of_stopped h
  not_before := Location.before_eq_false_iff.mpr (.inr ⟨rfl, Nat.le_add_right _ _⟩)
  first s hs hnot := by
    rw [Location.before_eq_false_iff] at hnot ⊢
    rcases hnot with hlt | ⟨hsame, hcol⟩
    · exact .inl hlt
    · refine .inr ⟨hsame, ?_⟩
      by_contra hlt
      have hblank : inWord (lineOf ls row) s.col = false := inWord_of_passed hcol (Nat.not_le.mp hlt)
      rw [onWord, hsame, hblank] at hs
      exact Bool.false_ne_true hs

/-- When the rest of a line has no word, the next one is in the lines below. -/
theorem row_lt_of_blanks (h : (lineOf ls row).length ≤ col + run true ((lineOf ls row).drop col))
    (hs : onWord ls s = true) (hnot : s.before ⟨row, col⟩ = false) : row < s.row := by
  rcases Location.before_eq_false_iff.mp hnot with hlt | ⟨hsame, hcol⟩
  · exact hlt
  · rw [onWord, hsame] at hs
    exact absurd (lt_of_blanks h hs) (Nat.not_lt.mpr hcol)

/-- Then what is first from the row below on is first from the column on. -/
theorem FirstOnWord.of_blanks {w : Location}
    (hend : (lineOf ls row).length ≤ col + run true ((lineOf ls row).drop col))
    (h : FirstOnWord ls ⟨row + 1, 0⟩ w) : FirstOnWord ls ⟨row, col⟩ w where
  onWord := h.onWord
  not_before := by
    have hnot := h.not_before
    rw [← Bool.not_eq_true, Location.before_rowStart_iff] at hnot
    exact Location.before_eq_false_iff.mpr (.inl (Nat.not_lt.mp hnot))
  first s hs hnot := by
    refine h.first s hs ?_
    rw [← Bool.not_eq_true, Location.before_rowStart_iff]
    exact Nat.not_lt.mpr (row_lt_of_blanks hend hs hnot)

/-- The search ends, since every line that it goes on to leaves one line less. It leads to the first
character of a word from a column on, or where there is none to the end of the text. -/
theorem seekWord_cases {later : List Text} (hrow : row < ls.length) (hlater : later = ls.drop (row + 1)) :
    FirstOnWord ls ⟨row, col⟩ (seekWord row col (lineOf ls row) later) ∨
      seekWord row col (lineOf ls row) later = lastEnd ls ∧
        ∀ s, onWord ls s = true → s.before ⟨row, col⟩ = true := by
  induction later generalizing row col with
  | nil =>
    rw [seekWord]
    split
    · rename_i hfound
      exact .inl (firstOnWord_of_run hfound)
    · rename_i hend
      have hlast : ls.length = row + 1 := by
        have hlen := congrArg List.length hlater
        rw [List.length_nil, List.length_drop] at hlen
        omega
      refine .inr ⟨by rw [lastEnd, hlast, Nat.add_sub_cancel], fun s hs => ?_⟩
      by_contra hnot
      have hlt := row_lt_of_blanks (Nat.not_lt.mp hend) hs (Bool.eq_false_iff.mpr hnot)
      have hin := row_lt_of_onWord hs
      omega
  | cons next later ih =>
    rw [seekWord]
    split
    · rename_i hfound
      exact .inl (firstOnWord_of_run hfound)
    · rename_i hend
      obtain ⟨hnext, hline, hrest⟩ := drop_eq_cons hlater
      rw [hline]
      rcases ih hnext hrest with hfirst | ⟨hto, hnone⟩
      · exact .inl (hfirst.of_blanks (Nat.not_lt.mp hend))
      · refine .inr ⟨hto, fun s hs => ?_⟩
        by_contra hnot
        have hlt := row_lt_of_blanks (Nat.not_lt.mp hend) hs (Bool.eq_false_iff.mpr hnot)
        exact absurd (Location.before_rowStart_iff.mp (hnone s hs)) (Nat.not_lt.mpr hlt)

section Stops

def endStops (ls : List Text) (l : Location) : List Location :=
  (Location.all ls).filter fun s => l.before s && endsWord (lineOf ls s.row) s.col

theorem onWord_of_endsWord (h : endsWord (lineOf ls s.row) s.col = true) : onWord ls s = true :=
  (endsWord_iff.mp h).1

/-- What is behind a location is not before the column next to it. -/
theorem before_iff_not_before : l.before s = true ↔ s.before ⟨l.row, l.col + 1⟩ = false := by
  rw [Location.before_iff, Location.before_eq_false_iff, Nat.succ_le_iff, eq_comm]

/-- A step leads to the end of the first word found behind the location, or finds none and leads to the
end of the text. -/
theorem stepWordEnd_cases (hrow : l.row < ls.length) :
    (∃ w, FirstOnWord ls ⟨l.row, l.col + 1⟩ w ∧
        stepWordEnd ls l = ⟨w.row, endOfWord (lineOf ls w.row) w.col⟩) ∨
      stepWordEnd ls l = lastEnd ls ∧
        ∀ s, onWord ls s = true → s.before ⟨l.row, l.col + 1⟩ = true := by
  unfold stepWordEnd
  simp only
  rcases seekWord_cases hrow rfl with hfirst | ⟨hto, hnone⟩
  · left
    rw [if_neg (Nat.not_le.mpr (lt_of_inWord hfirst.onWord))]
    exact ⟨_, hfirst, rfl⟩
  · right
    rw [hto]
    exact ⟨if_pos (Nat.le_refl _), hnone⟩

theorem endStops_step (h : l.Within ls) :
    endStops ls l = stepWordEnd ls l :: endStops ls (stepWordEnd ls l) ∨
      endStops ls l = [] ∧ stepWordEnd ls l = lastEnd ls := by
  have hwithin := within_stepWordEnd h
  rcases stepWordEnd_cases h.row with ⟨w, hfirst, hto⟩ | ⟨hto, hnone⟩
  · left
    rw [hto] at hwithin ⊢
    have hends : endsWord (lineOf ls w.row) (endOfWord (lineOf ls w.row) w.col) = true :=
      endsWord_endOfWord hfirst.onWord
    have hlt : l.before ⟨w.row, endOfWord (lineOf ls w.row) w.col⟩ = true := by
      have hle : w.col ≤ endOfWord (lineOf ls w.row) w.col := Nat.le_add_right _ _
      rw [Location.before_iff]
      rcases Location.before_iff.mp (before_iff_not_before.mpr hfirst.not_before) with hlt | ⟨hsame, hlt⟩
      · exact .inl hlt
      · exact .inr ⟨hsame, Nat.lt_of_lt_of_le hlt hle⟩
    refine Location.filter_all_eq_cons hwithin ?_ ?_ ?_
    · rw [hlt, hends]
      rfl
    · intro s _ hs hne
      rw [Bool.and_eq_true] at hs
      rw [Location.before_of_ne hne.symm, Bool.not_eq_true']
      have hnot := hfirst.first s (onWord_of_endsWord hs.2) (before_iff_not_before.mp hs.1)
      rw [Location.before_eq_false_iff] at hnot ⊢
      rcases hnot with hlt | ⟨hsame, hcol⟩
      · exact .inl hlt
      · rw [hsame] at hs
        exact .inr ⟨hsame, endOfWord_le hs.2 hcol⟩
    · intro s _
      rw [Bool.and_eq_true, Bool.and_eq_true]
      constructor
      · rintro ⟨hbehind, hs⟩
        exact ⟨⟨Location.before_trans hlt hbehind, hs⟩, hbehind⟩
      · rintro ⟨⟨-, hs⟩, hbehind⟩
        exact ⟨hbehind, hs⟩
  · right
    refine ⟨List.filter_eq_nil_iff.mpr fun s _ hs => ?_, hto⟩
    rw [Bool.and_eq_true] at hs
    have hbefore := hnone s (onWord_of_endsWord hs.2)
    exact Bool.false_ne_true ((before_iff_not_before.mp hs.1).symm.trans hbefore)

theorem endStops_lastEnd (ls : List Text) : endStops ls (lastEnd ls) = [] := by
  refine List.filter_eq_nil_iff.mpr fun s hs hstop => ?_
  have hs := Location.mem_all.mp hs
  rw [Bool.and_eq_true] at hstop
  rcases Location.before_iff.mp hstop.1 with hbelow | ⟨hsame, hbehind⟩
  · have hrow := hs.row
    simp only [lastEnd] at hbelow
    omega
  · have hcol := hs.col
    rw [← hsame] at hcol
    exact absurd hcol (Nat.not_le.mpr hbehind)

theorem iterate_stepWordEnd (h : l.Within ls) (n : ℕ) :
    iterate (stepWordEnd ls) (n + 1) l = (endStops ls l).getD n (lastEnd ls) :=
  iterate_stops (P := Location.Within ls) (fun _ => within_stepWordEnd) (fun _ => endStops_step)
    (endStops_lastEnd ls) h n

/-- The last character of the text, when its last line has one. -/
def lastChar (ls : List Text) : Location := ⟨ls.length - 1, (lineOf ls (ls.length - 1)).length - 1⟩

def keepToChars (ls : List Text) (l : Location) : Location :=
  ⟨l.row, min l.col ((lineOf ls l.row).length - 1)⟩

theorem keepToChars_of_onWord (h : onWord ls s = true) : keepToChars ls s = s := by
  have hlt := lt_of_inWord h
  exact Location.eq_of rfl (Nat.min_eq_left (Nat.le_sub_one_of_lt hlt))

theorem keepToChars_lastEnd (ls : List Text) : keepToChars ls (lastEnd ls) = lastChar ls :=
  Location.eq_of rfl (Nat.min_eq_right (Nat.sub_le _ _))

theorem mem_endStops : s ∈ endStops ls l ↔
    s.Within ls ∧ l.before s = true ∧ endsWord (lineOf ls s.row) s.col = true := by
  rw [endStops, List.mem_filter, Location.mem_all, Bool.and_eq_true]

/-- A count of `n` leads to the `n`-th end of a word, or past the last of them to the last character of
the text. -/
theorem wordEnd_target (h : l.Within ls) {n : ℕ} (hn : 0 < n) :
    wordEnd.target ls l n = (endStops ls l).getD (n - 1) (lastChar ls) := by
  obtain ⟨n, rfl⟩ := Nat.exists_eq_add_one_of_ne_zero hn.ne'
  have htarget : wordEnd.target ls l (n + 1) = keepToChars ls ((endStops ls l).getD n (lastEnd ls)) := by
    rw [← iterate_stepWordEnd h]
    rfl
  rw [htarget, Nat.add_sub_cancel]
  rcases Nat.lt_or_ge n (endStops ls l).length with hlt | hge
  · rw [List.getD_eq_getElem _ _ hlt, List.getD_eq_getElem _ _ hlt]
    exact keepToChars_of_onWord (onWord_of_endsWord (mem_endStops.mp (List.getElem_mem hlt)).2.2)
  · rw [List.getD_eq_default _ _ hge, List.getD_eq_default _ _ hge]
    exact keepToChars_lastEnd ls

theorem lastChar_before_iff (h : l.Within ls) :
    (lastChar ls).before l = true ↔ l = lastEnd ls ∧ 0 < l.col := by
  have hrow := h.row
  have hcol : l.col ≤ (lineOf ls l.row).length := h.col
  rw [Location.before_iff, lastChar]
  constructor
  · rintro (hlt | ⟨hsame, hlt⟩)
    · exact absurd hlt (Nat.not_lt.mpr (Nat.le_sub_one_of_lt hrow))
    · rw [← hsame] at hcol
      exact ⟨Location.eq_of hsame.symm (Nat.le_antisymm hcol (Nat.le_of_pred_lt hlt)), Nat.zero_lt_of_lt hlt⟩
  · rintro ⟨rfl, hpos⟩
    exact .inr ⟨rfl, Nat.sub_one_lt_of_lt hpos⟩

/-- The motion leads back only from behind the last character of the text, to that character. -/
theorem wordEnd_before_iff (h : l.Within ls) {n : ℕ} (hn : 0 < n) :
    ((wordEnd.target ls l n).before l = true ↔ l = lastEnd ls ∧ 0 < l.col) ∧
      (l = lastEnd ls → wordEnd.target ls l n = ⟨l.row, l.col - 1⟩) := by
  rw [wordEnd_target h hn]
  rcases Nat.lt_or_ge (n - 1) (endStops ls l).length with hlt | hge
  · have hne : l ≠ lastEnd ls := by
      rintro rfl
      rw [endStops_lastEnd] at hlt
      exact absurd hlt (Nat.not_lt_zero _)
    have hbehind := (mem_endStops.mp (List.getElem_mem hlt)).2.1
    rw [List.getD_eq_getElem _ _ hlt, Location.before_asymm hbehind]
    exact ⟨⟨fun hback => absurd hback Bool.false_ne_true, fun hend => absurd hend.1 hne⟩,
      fun hend => absurd hend hne⟩
  · rw [List.getD_eq_default _ _ hge]
    refine ⟨lastChar_before_iff h, ?_⟩
    rintro rfl
    rfl

/-- In no case does it leave for a row above. -/
theorem row_le_wordEnd (h : l.Within ls) {n : ℕ} (hn : 0 < n) : l.row ≤ (wordEnd.target ls l n).row := by
  obtain ⟨hback, hto⟩ := wordEnd_before_iff h hn
  cases hb : (wordEnd.target ls l n).before l with
  | true => rw [hto (hback.mp hb).1]
  | false =>
    rcases Location.before_eq_false_iff.mp hb with hlt | ⟨hsame, -⟩
    · exact Nat.le_of_lt hlt
    · exact Nat.le_of_eq hsame.symm

end Stops

end ModalEditing.Motion
