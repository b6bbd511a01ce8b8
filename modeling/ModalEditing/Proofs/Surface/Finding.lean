import ModalEditing.Proofs.Surface.Rows

namespace ModalEditing

/-- The pattern stands in one of the lines from a location on. -/
def Occurs (ls : List Text) (pattern : Text) (l : Location) : Prop :=
  l.row < ls.length ∧ pattern <+: (ls.getD l.row []).drop l.col

/-- Reading on from a location, around the end of the text and up to it again, the first of two others
comes up sooner: it alone is after the place where reading begins, or it is the earlier one. -/
def MetSooner (here a b : Location) : Prop :=
  here.before a = true ∧ here.before b = false ∨
    here.before a = here.before b ∧ a.before b = true

section Occurrences
variable {ls : List Text} {pattern line : Text} {col : ℕ} {l : Location}

theorem Occurs.within (hp : pattern ≠ []) (h : Occurs ls pattern l) : l.Within ls := by
  have hpos := List.length_pos_iff.mpr hp
  have hlength := h.2.length_le
  rw [List.length_drop] at hlength
  exact ⟨h.1, by omega⟩

/-- A pattern occurs just where one of the lines has it in it. -/
theorem exists_occurs_iff : (∃ l, Occurs ls pattern l) ↔ ∃ line ∈ ls, pattern <:+: line := by
  constructor
  · rintro ⟨l, hrow, hstands⟩
    refine ⟨ls.getD l.row [], ?_, hstands.isInfix.trans (List.drop_suffix l.col _).isInfix⟩
    rw [← List.getElem_eq_getD (h := hrow) []]
    exact List.getElem_mem hrow
  · rintro ⟨line, hline, hin⟩
    obtain ⟨row, hrow, rfl⟩ := List.getElem_of_mem hline
    obtain ⟨t, hpre, hsuf⟩ := List.infix_iff_prefix_suffix.mp hin
    refine ⟨⟨row, (ls[row]).length - t.length⟩, hrow, ?_⟩
    rw [← List.getElem_eq_getD (h := hrow) [], ← List.suffix_iff_eq_drop.mp hsuf]
    exact hpre

theorem forall_not_occurs_iff : (∀ l, ¬ Occurs ls pattern l) ↔ ∀ line ∈ ls, ¬ pattern <:+: line := by
  rw [← not_exists, exists_occurs_iff]
  simp

theorem mem_occurrences_go (hp : pattern ≠ []) {t : Text} {n : ℕ} :
    col ∈ occurrences.go pattern n t ↔ n ≤ col ∧ pattern <+: t.drop (col - n) := by
  induction t generalizing n with
  | nil => simp [occurrences.go, List.isEmpty_eq_false_iff.mpr hp, hp]
  | cons c t ih =>
    have hhere : col ∈ occurrences.go pattern n (c :: t) ↔
        pattern <+: c :: t ∧ col = n ∨ col ∈ occurrences.go pattern (n + 1) t := by
      rw [occurrences.go]
      split_ifs with h
      · simp [List.isPrefixOf_iff_prefix.mp h]
      · have hnot : ¬ pattern <+: c :: t := fun hpre => h (List.isPrefixOf_iff_prefix.mpr hpre)
        simp [hnot]
    rw [hhere, ih]
    by_cases hcol : col = n
    · subst hcol
      simp
    · by_cases hlt : n < col
      · obtain ⟨k, rfl⟩ : ∃ k, col = n + 1 + k := ⟨col - (n + 1), by omega⟩
        have hdrop : n + 1 + k - n = k + 1 := by omega
        have hleft : n + 1 + k - (n + 1) = k := by omega
        rw [hdrop, hleft, List.drop_succ_cons]
        simp [hcol]
        omega
      · simp [hcol]
        omega

/-- The occurrences in a line are the columns from which on it begins with the pattern. -/
theorem mem_occurrences (hp : pattern ≠ []) :
    col ∈ occurrences pattern line ↔ pattern <+: line.drop col := by
  rw [occurrences, mem_occurrences_go hp, Nat.sub_zero]
  exact and_iff_right (Nat.zero_le _)

theorem sorted_occurrences (hp : pattern ≠ []) : (occurrences pattern line).Pairwise (· < ·) := by
  have hsorted (t : Text) (n : ℕ) : (occurrences.go pattern n t).Pairwise (· < ·) := by
    induction t generalizing n with
    | nil => simp [occurrences.go, List.isEmpty_eq_false_iff.mpr hp]
    | cons c t ih =>
      rw [occurrences.go]
      split_ifs
      · refine List.pairwise_cons.mpr ⟨fun col hcol => ?_, ih (n + 1)⟩
        exact ((mem_occurrences_go hp).mp hcol).1
      · exact ih (n + 1)
  exact hsorted line 0

theorem firstFrom_eq_some (hp : pattern ≠ []) {start : ℕ}
    (h : firstFrom pattern line start = some col) :
    start ≤ col ∧ pattern <+: line.drop col ∧
      ∀ col', start ≤ col' → pattern <+: line.drop col' → col ≤ col' := by
  obtain ⟨hstart, before, behind, hall, hbefore⟩ := List.find?_eq_some_iff_append.mp h
  have hmem {col' : ℕ} : col' ∈ occurrences pattern line ↔ pattern <+: line.drop col' :=
    mem_occurrences hp
  have hsorted : (occurrences pattern line).Pairwise (· < ·) := sorted_occurrences hp
  rw [hall] at hmem hsorted
  refine ⟨of_decide_eq_true hstart, hmem.mp (by simp), fun col' hle hcol' => ?_⟩
  -- Those before the one found are too early, and those behind it are greater.
  rcases List.mem_append.mp (hmem.mpr hcol') with hin | hin
  · have hlt := hbefore col' hin
    simp [hle] at hlt
  · rcases List.mem_cons.mp hin with rfl | hin
    · exact Nat.le_refl _
    · have hlater := (List.pairwise_cons.mp (List.pairwise_append.mp hsorted).2.1).1
      exact Nat.le_of_lt (hlater col' hin)

theorem firstFrom_eq_none (hp : pattern ≠ []) {start : ℕ} (h : firstFrom pattern line start = none)
    (hcol : pattern <+: line.drop col) : col < start := by
  have hnone := List.find?_eq_none.mp h col ((mem_occurrences hp).mpr hcol)
  simpa using hnone

end Occurrences

theorem MetSooner.asymm {here a b : Location} (h : MetSooner here a b) : ¬ MetSooner here b a := by
  rintro (⟨hb, ha⟩ | ⟨heq, hlt⟩)
  · rcases h with ⟨ha', -⟩ | ⟨heq', -⟩
    · exact Bool.false_ne_true (ha.symm.trans ha')
    · exact Bool.false_ne_true (ha.symm.trans (heq'.trans hb))
  · rcases h with ⟨ha', hb'⟩ | ⟨-, hlt'⟩
    · exact Bool.false_ne_true (hb'.symm.trans (heq.trans ha'))
    · rw [Location.before_iff] at hlt hlt'
      omega

/-- A search along the numbers stops at the first that gives something. -/
theorem findSome?_range_eq_some {α : Type} {f : ℕ → Option α} {a : α} {n : ℕ}
    (h : (List.range n).findSome? f = some a) : ∃ i < n, f i = some a ∧ ∀ j < i, f j = none := by
  induction n with
  | zero => cases h
  | succ n ih =>
    rw [List.range_succ, List.findSome?_append] at h
    cases hn : (List.range n).findSome? f with
    | some b =>
      rw [hn, Option.some_or] at h
      rw [h] at hn
      obtain ⟨i, hi, hfound⟩ := ih hn
      exact ⟨i, Nat.lt_succ_of_lt hi, hfound⟩
    | none =>
      rw [hn, Option.none_or, List.findSome?_singleton] at h
      exact ⟨n, Nat.lt_succ_self n, h,
        fun j hj => List.findSome?_eq_none_iff.mp hn j (List.mem_range.mpr hj)⟩

/-- A search comes to the location with a property that is met sooner than all others with it, and comes
to nothing only where none has it. -/
structure Finds (P : Location → Prop) (sooner : Location → Location → Prop)
    (found : Option Location) : Prop where
  first : ∀ l, found = some l → P l ∧ ∀ l', P l' → l' ≠ l → sooner l l'
  nowhere : found = none → ∀ l, ¬ P l

namespace Finds
variable {P : Location → Prop} {sooner : Location → Location → Prop} {found : Option Location}
  {l : Location}

theorem eq_some_iff (h : Finds P sooner found) (hasymm : ∀ a b, sooner a b → ¬ sooner b a) :
    found = some l ↔ P l ∧ ∀ l', P l' → l' ≠ l → sooner l l' := by
  constructor
  · exact h.first l
  · rintro ⟨hl, hfirst⟩
    cases hfound : found with
    | none => exact absurd hl (h.nowhere hfound l)
    | some l' =>
      obtain ⟨hl', hfirst'⟩ := h.first l' hfound
      by_contra hne
      have hne : l' ≠ l := fun h => hne (congrArg some h)
      exact hasymm l l' (hfirst l' hl' hne) (hfirst' l hl hne.symm)

theorem eq_none_iff (h : Finds P sooner found) : found = none ↔ ∀ l, ¬ P l := by
  constructor
  · exact h.nowhere
  · intro hnowhere
    cases hfound : found with
    | none => rfl
    | some l => exact absurd (h.first l hfound).1 (hnowhere l)

/-- A search step by step finds what it is for, if each location has a step at which it comes up, and
what comes up at an earlier step, or at the same one nearer, is met sooner. -/
theorem of_steps {look : ℕ → Option Location} (lap : Location → ℕ)
    (nearer : Location → Location → Prop) {n : ℕ} (hlap : ∀ l, P l → lap l < n)
    (hlook : ∀ l, P l → look (lap l) ≠ none)
    (hfirst : ∀ step < n, ∀ l, look step = some l → (∀ j < step, look j = none) →
      P l ∧ lap l = step ∧ ∀ l', P l' → lap l' = step → l' ≠ l → nearer l l')
    (hsooner : ∀ l l', P l → P l' → lap l < lap l' ∨ lap l = lap l' ∧ nearer l l' → sooner l l') :
    Finds P sooner ((List.range n).findSome? look) where
  first l h := by
    obtain ⟨step, hstep, hl, hearlier⟩ := findSome?_range_eq_some h
    obtain ⟨hpl, hlapl, hnearest⟩ := hfirst step hstep l hl hearlier
    refine ⟨hpl, fun l' hl' hne => hsooner l l' hpl hl' ?_⟩
    have hle : step ≤ lap l' := by
      by_contra hlt
      exact hlook l' hl' (hearlier _ (Nat.lt_of_not_le hlt))
    rcases Nat.eq_or_lt_of_le hle with heq | hlt
    · exact .inr ⟨hlapl.trans heq, hnearest l' hl' heq.symm hne⟩
    · exact .inl (hlapl ▸ hlt)
  nowhere h l hl := hlook l hl (List.findSome?_eq_none_iff.mp h _ (List.mem_range.mpr (hlap l hl)))

end Finds

section Forward
variable {ls : List Text} {pattern : Text} {here l l' : Location} {n step : ℕ}

/-- The step of a search forward at which a location comes up: in a text of `n` rows the row where the
search begins comes up first, behind the location, and `n` steps later, up to it. -/
def lap (n : ℕ) (here l : Location) : ℕ :=
  if here.before l then l.row - here.row else l.row + n - here.row

theorem lap_cases (n : ℕ) (here l : Location) :
    (here.row < l.row ∨ here.row = l.row ∧ here.col < l.col) ∧ lap n here l = l.row - here.row ∨
      (l.row < here.row ∨ here.row = l.row ∧ l.col ≤ here.col) ∧
        lap n here l = l.row + n - here.row := by
  unfold lap
  cases h : here.before l with
  | true => exact .inl ⟨Location.before_iff.mp h, if_pos rfl⟩
  | false => exact .inr ⟨Location.before_eq_false_iff.mp h, if_neg Bool.false_ne_true⟩

theorem lap_le (hl : l.row < n) : lap n here l ≤ n := by
  have hcases := lap_cases n here l
  omega

theorem row_of_lap (hhere : here.row < n) (hl : l.row < n) : (here.row + lap n here l) % n = l.row := by
  have hcases := lap_cases n here l
  have hrow : here.row + lap n here l = l.row ∨ here.row + lap n here l = l.row + n := by omega
  rcases hrow with h | h
  · rw [h, Nat.mod_eq_of_lt hl]
  · rw [h, Nat.add_mod_right, Nat.mod_eq_of_lt hl]

theorem col_of_lap (hhere : here.row < n) (h : lap n here l = 0) : here.col < l.col := by
  have hcases := lap_cases n here l
  omega

/-- What a step comes to has that lap: the first step goes on from behind the place where the search
begins, and the last one up to it. -/
theorem lap_eq (hhere : here.row < n) (hstep : step ≤ n) (hrow : l.row = (here.row + step) % n)
    (hfirst : step = 0 → here.col < l.col) (hlast : step = n → l.col ≤ here.col) :
    lap n here l = step := by
  have hcases := lap_cases n here l
  by_cases hwrap : here.row + step < n
  · rw [Nat.mod_eq_of_lt hwrap] at hrow
    omega
  · rw [Nat.mod_eq_sub_mod (Nat.not_lt.mp hwrap), Nat.mod_eq_of_lt (by omega)] at hrow
    omega

/-- What comes up at an earlier step, or at the same one further to the left, is met sooner. -/
theorem metSooner_of_lap (hhere : here.row < n) (hl : l.row < n) (hl' : l'.row < n)
    (h : lap n here l < lap n here l' ∨ lap n here l = lap n here l' ∧ l.col < l'.col) :
    MetSooner here l l' := by
  have hcases := lap_cases n here l
  have hcases' := lap_cases n here l'
  unfold MetSooner
  cases hb : here.before l with
  | true =>
    rw [Location.before_iff] at hb
    cases hb' : here.before l' with
    | true =>
      rw [Location.before_iff] at hb'
      exact .inr ⟨rfl, Location.before_iff.mpr (by omega)⟩
    | false => exact .inl ⟨rfl, rfl⟩
  | false =>
    rw [Location.before_eq_false_iff] at hb
    cases hb' : here.before l' with
    | true =>
      rw [Location.before_iff] at hb'
      omega
    | false =>
      rw [Location.before_eq_false_iff] at hb'
      exact .inr ⟨rfl, Location.before_iff.mpr (by omega)⟩

def lookForward (ls : List Text) (pattern : Text) (here : Location) (step : ℕ) : Option Location :=
  let row := (here.row + step) % ls.length
  (firstFrom pattern (ls.getD row []) (if step = 0 then here.col + 1 else 0)).map (⟨row, ·⟩)

theorem findForward_eq (ls : List Text) (pattern : Text) (here : Location) :
    findForward ls pattern here
      = (List.range (ls.length + 1)).findSome? (lookForward ls pattern here) := rfl

/-- A step comes to the leftmost occurrence of its row, the first step to that behind the place where
the search begins. -/
theorem lookForward_eq_some (hp : pattern ≠ []) (hhere : here.row < ls.length)
    (h : lookForward ls pattern here step = some l) :
    Occurs ls pattern l ∧ l.row = (here.row + step) % ls.length ∧ (step = 0 → here.col < l.col) ∧
      ∀ l', Occurs ls pattern l' → l'.row = l.row → (step = 0 → here.col < l'.col) →
        l.col ≤ l'.col := by
  obtain ⟨col, hcol, rfl⟩ := Option.map_eq_some_iff.mp h
  obtain ⟨hstart, hstands, hleast⟩ := firstFrom_eq_some hp hcol
  refine ⟨⟨Nat.mod_lt _ (by omega), hstands⟩, rfl, fun hstep => ?_, fun l' hl' hrow hfirst => ?_⟩
  · rw [if_pos hstep] at hstart
    exact hstart
  · have hstands' := hl'.2
    rw [hrow] at hstands'
    refine hleast l'.col ?_ hstands'
    split_ifs with hstep
    · exact hfirst hstep
    · exact Nat.zero_le _

/-- A step that comes to nothing has passed over all occurrences in its row. -/
theorem lookForward_eq_none (hp : pattern ≠ []) (h : lookForward ls pattern here step = none)
    (hl : Occurs ls pattern l) (hrow : l.row = (here.row + step) % ls.length) :
    step = 0 ∧ l.col ≤ here.col := by
  have hstands := hl.2
  rw [hrow] at hstands
  have hlt := firstFrom_eq_none hp (Option.map_eq_none_iff.mp h) hstands
  split_ifs at hlt with hstep
  · exact ⟨hstep, Nat.le_of_lt_succ hlt⟩
  · exact absurd hlt (Nat.not_lt_zero _)

/-- The step at which an occurrence comes up finds something. -/
theorem lookForward_lap_ne_none (hp : pattern ≠ []) (hhere : here.row < ls.length)
    (hl : Occurs ls pattern l) :
    lookForward ls pattern here (lap ls.length here l) ≠ none := by
  intro h
  obtain ⟨hstep, hcol⟩ := lookForward_eq_none hp h hl (row_of_lap hhere hl.1).symm
  have hbehind := col_of_lap hhere hstep
  omega

/-- What a search forward finds is met sooner than every other occurrence. -/
theorem finds_forward (hp : pattern ≠ []) (hhere : here.row < ls.length) :
    Finds (Occurs ls pattern) (MetSooner here) (findForward ls pattern here) := by
  rw [findForward_eq]
  refine .of_steps (lap ls.length here) (fun l l' => l.col < l'.col)
    (fun l hl => Nat.lt_succ_of_le (lap_le hl.1)) (fun l hl => lookForward_lap_ne_none hp hhere hl) ?_
    fun l l' hl hl' => metSooner_of_lap hhere hl.1 hl'.1
  intro step hstep l hl hearlier
  obtain ⟨hoccurs, hrow, hfirst, hleast⟩ := lookForward_eq_some hp hhere hl
  -- The second visit of the first row comes to nothing that the first one has seen.
  have hlast : step = ls.length → l.col ≤ here.col := by
    intro hstep
    have hzero := hearlier 0 (by omega)
    refine (lookForward_eq_none hp hzero hoccurs ?_).2
    rw [hrow, hstep, Nat.add_mod_right, Nat.add_zero]
  refine ⟨hoccurs, lap_eq hhere (Nat.le_of_lt_succ hstep) hrow hfirst hlast, fun l' hl' hlap hne => ?_⟩
  have hsame : l'.row = l.row := by
    rw [hrow, ← hlap, row_of_lap hhere hl'.1]
  have hcol : l.col ≤ l'.col := hleast l' hl' hsame fun hstep => col_of_lap hhere (hlap.trans hstep)
  have hdiff : l'.col ≠ l.col := fun hcol => hne (Location.eq_of hsame hcol)
  omega

theorem findForward_eq_some (hp : pattern ≠ []) (hhere : here.row < ls.length)
    (h : findForward ls pattern here = some l) :
    Occurs ls pattern l ∧ ∀ l', Occurs ls pattern l' → l' ≠ l → MetSooner here l l' :=
  (finds_forward hp hhere).first l h

/-- A search forward from a row of the text finds what occurs and is met sooner than every other
occurrence. -/
theorem findForward_eq_some_iff (hp : pattern ≠ []) (hhere : here.row < ls.length) :
    findForward ls pattern here = some l ↔
      Occurs ls pattern l ∧ ∀ l', Occurs ls pattern l' → l' ≠ l → MetSooner here l l' :=
  (finds_forward hp hhere).eq_some_iff fun _ _ => MetSooner.asymm

theorem findForward_eq_none_iff (hp : pattern ≠ []) (hhere : here.row < ls.length) :
    findForward ls pattern here = none ↔ ∀ line ∈ ls, ¬ pattern <:+: line :=
  (finds_forward hp hhere).eq_none_iff.trans forall_not_occurs_iff

end Forward

namespace Desk

/-- A search moves to what it finds. -/
theorem find_moves (d : Desk) (pattern : String) (direction : Direction) :
    (d.find pattern direction).1 = (d.find pattern direction).2.elim d d.move := by
  unfold find
  simp only
  split <;> rfl

theorem find_forward (d : Desk) (pattern : String) :
    (d.find pattern .forward).2 = findForward d.area.lines pattern.toList d.area.cursor := by
  unfold find
  cases findForward d.area.lines pattern.toList d.area.cursor <;> rfl

/-- A search forward finds the occurrence, of all that there are, that reading on from behind the cursor
comes to first, around the end of the text and up to the cursor itself; and it moves there. It finds
nothing, and changes nothing, just where the pattern is in no line. -/
theorem finds_next (d : Desk) (hc : d.area.cursor.Within d.area.lines) (pattern : String)
    (hp : pattern ≠ "") :
    let ls := d.area.lines
    let search := d.find pattern .forward
    (∀ l, search.2 = some l ↔ Occurs ls pattern.toList l ∧
      ∀ l', Occurs ls pattern.toList l' → l' ≠ l → MetSooner d.area.cursor l l') ∧
    (search.2 = none ↔ ∀ line ∈ ls, ¬ pattern.toList <:+: line) ∧
    (∀ l, search.2 = some l → search.1 = d.move l ∧ search.1.area.cursor = l) ∧
    (search.2 = none → search.1 = d) := by
  intro ls search
  have hp : pattern.toList ≠ [] := fun h => hp (String.toList_inj.mp h)
  have hresult : search.2 = findForward ls pattern.toList d.area.cursor := d.find_forward pattern
  have hdesk : search.1 = search.2.elim d d.move := d.find_moves pattern .forward
  refine ⟨fun l => ?_, ?_, fun l hfound => ?_, fun hnone => ?_⟩
  · rw [hresult]
    exact findForward_eq_some_iff hp hc.row
  · rw [hresult]
    exact findForward_eq_none_iff hp hc.row
  · have hmoved : search.1 = d.move l := by rw [hdesk, hfound, Option.elim_some]
    rw [hresult] at hfound
    have hl : Occurs ls pattern.toList l := (findForward_eq_some hp hc.row hfound).1
    refine ⟨hmoved, ?_⟩
    rw [hmoved]
    exact (hl.within hp).clampTo_eq
  · rw [hdesk, hnone, Option.elim_none]

/-- Of two occurrences that overlap, the one that the cursor is on comes last, and the one before it is
found behind the end of the text. -/
theorem finds_overlapping_occurrence :
    let d : Desk := { state := {}, area := { text := ['a', 'a', 'a', '\n', 'b'], cursor := ⟨0, 1⟩ } }
    d.area.cursor.Within d.area.lines ∧ "aa" ≠ "" ∧ Occurs d.area.lines "aa".toList ⟨0, 1⟩ ∧
    (∀ l, Occurs d.area.lines "aa".toList l → l ≠ ⟨0, 0⟩ → MetSooner ⟨0, 1⟩ ⟨0, 0⟩ l) ∧
    (d.find "aa" .forward).1.area.cursor = ⟨0, 0⟩ := by
  intro d
  have hc : d.area.cursor.Within d.area.lines := ⟨by decide, by decide⟩
  have hp : "aa" ≠ "" := by decide
  obtain ⟨hfirst, -, hmoves, -⟩ := finds_next d hc "aa" hp
  have hfound : (d.find "aa" .forward).2 = some ⟨0, 0⟩ := by decide +kernel
  exact ⟨hc, hp, ⟨by decide, by decide +kernel⟩, ((hfirst _).mp hfound).2, (hmoves _ hfound).2⟩

end Desk
end ModalEditing
