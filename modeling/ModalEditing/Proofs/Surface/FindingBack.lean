import ModalEditing.Proofs.Surface.Finding
import ModalEditing.Proofs.Surface.Pressing

namespace ModalEditing

/-- Reading back through the locations that are early and then, from the end of the text, through the
others, the first of two comes up sooner. -/
def MetSoonerBack (early : Location → Bool) (a b : Location) : Prop :=
  early a = true ∧ early b = false ∨ early a = early b ∧ b.before a = true

/-- The pattern, where it stands at a location, ends there or before. -/
def endsBy (pattern : Text) (here l : Location) : Bool := !here.before ⟨l.row, l.col + pattern.length⟩

/-- The pattern, where it stands at a location, begins before another one and ends behind it. -/
def Astride (pattern : Text) (here l : Location) : Prop :=
  l.row = here.row ∧ l.col < here.col ∧ here.col < l.col + pattern.length

section Occurrences
variable {ls : List Text} {pattern line : Text} {col : ℕ} {here l : Location}

theorem endsBy_iff : endsBy pattern here l = true ↔
    l.row < here.row ∨ here.row = l.row ∧ l.col + pattern.length ≤ here.col := by
  rw [endsBy, Bool.not_eq_true', Location.before_eq_false_iff]

theorem endsBy_eq_false_iff : endsBy pattern here l = false ↔
    here.row < l.row ∨ here.row = l.row ∧ here.col < l.col + pattern.length := by
  rw [endsBy, Bool.not_eq_false', Location.before_iff]

/-- What stands across a location is what begins before it and does not end by it. -/
theorem astride_iff :
    Astride pattern here l ↔ l.before here = true ∧ endsBy pattern here l = false := by
  rw [endsBy_eq_false_iff, Location.before_iff, Astride]
  omega

theorem before_of_endsBy (hp : pattern ≠ []) (h : endsBy pattern here l = true) :
    l.before here = true := by
  have hpos := List.length_pos_iff.mpr hp
  rw [endsBy_iff] at h
  rw [Location.before_iff]
  omega

theorem not_astride_self : ¬ Astride pattern l l := fun h => Nat.lt_irrefl _ h.2.1

/-- What stands in a line ends in it. -/
theorem end_le_of_stands (hp : pattern ≠ []) (h : pattern <+: line.drop col) :
    col + pattern.length ≤ line.length := by
  have hpos := List.length_pos_iff.mpr hp
  have hlength := h.length_le
  rw [List.length_drop] at hlength
  omega

theorem lastWithin_eq_some (hp : pattern ≠ []) {stop : ℕ}
    (h : lastWithin pattern line stop = some col) :
    col + pattern.length ≤ stop ∧ pattern <+: line.drop col ∧
      ∀ col', col' + pattern.length ≤ stop → pattern <+: line.drop col' → col' ≤ col := by
  have hmem {col' : ℕ} : col' ∈ (occurrences pattern line).filter (· + pattern.length ≤ stop) ↔
      pattern <+: line.drop col' ∧ col' + pattern.length ≤ stop := by
    rw [List.mem_filter, mem_occurrences hp, decide_eq_true_iff]
  have hsorted : ((occurrences pattern line).filter (· + pattern.length ≤ stop)).Pairwise (· < ·) :=
    (sorted_occurrences hp).filter _
  obtain ⟨earlier, hall⟩ := List.getLast?_eq_some_iff.mp h
  rw [hall] at hmem hsorted
  obtain ⟨hstands, hstop⟩ := hmem.mp (List.mem_append_right earlier List.mem_cons_self)
  refine ⟨hstop, hstands, fun col' hle hcol' => ?_⟩
  rcases List.mem_append.mp (hmem.mpr ⟨hcol', hle⟩) with hin | hin
  · exact Nat.le_of_lt ((List.pairwise_append.mp hsorted).2.2 col' hin col List.mem_cons_self)
  · exact Nat.le_of_eq (List.mem_singleton.mp hin)

theorem lastWithin_eq_none (hp : pattern ≠ []) {stop : ℕ} (h : lastWithin pattern line stop = none)
    (hcol : pattern <+: line.drop col) : stop < col + pattern.length := by
  have hnone := List.filter_eq_nil_iff.mp (List.getLast?_eq_none_iff.mp h) col
    ((mem_occurrences hp).mpr hcol)
  simpa using hnone

end Occurrences

theorem MetSoonerBack.asymm {early : Location → Bool} {a b : Location} (h : MetSoonerBack early a b) :
    ¬ MetSoonerBack early b a := by
  rintro (⟨hb, ha⟩ | ⟨heq, hlt⟩)
  · rcases h with ⟨ha', -⟩ | ⟨heq', -⟩
    · exact Bool.false_ne_true (ha.symm.trans ha')
    · exact Bool.false_ne_true (ha.symm.trans (heq'.trans hb))
  · rcases h with ⟨ha', hb'⟩ | ⟨-, hlt'⟩
    · exact Bool.false_ne_true (hb'.symm.trans (heq.trans ha'))
    · rw [Location.before_iff] at hlt hlt'
      omega

section Backward
variable {ls : List Text} {pattern : Text} {here l l' : Location} {n step : ℕ}

/-- The step of a search backward at which an occurrence comes up: in a text of `n` rows the row where
the search begins comes up first, for what ends by the location, and `n` steps later, for the rest. -/
def lapBack (n : ℕ) (pattern : Text) (here l : Location) : ℕ :=
  if endsBy pattern here l then here.row - l.row else here.row + n - l.row

theorem lapBack_cases (n : ℕ) (pattern : Text) (here l : Location) :
    (l.row < here.row ∨ here.row = l.row ∧ l.col + pattern.length ≤ here.col) ∧
        lapBack n pattern here l = here.row - l.row ∨
      (here.row < l.row ∨ here.row = l.row ∧ here.col < l.col + pattern.length) ∧
        lapBack n pattern here l = here.row + n - l.row := by
  unfold lapBack
  cases h : endsBy pattern here l with
  | true => exact .inl ⟨endsBy_iff.mp h, if_pos rfl⟩
  | false => exact .inr ⟨endsBy_eq_false_iff.mp h, if_neg Bool.false_ne_true⟩

theorem lapBack_le (hhere : here.row < n) : lapBack n pattern here l ≤ n := by
  have hcases := lapBack_cases n pattern here l
  omega

theorem row_of_lapBack (hl : l.row < n) :
    (here.row + n - lapBack n pattern here l) % n = l.row := by
  have hcases := lapBack_cases n pattern here l
  have hrow : here.row + n - lapBack n pattern here l = l.row + n ∨
      here.row + n - lapBack n pattern here l = l.row := by omega
  rcases hrow with h | h
  · rw [h, Nat.add_mod_right, Nat.mod_eq_of_lt hl]
  · rw [h, Nat.mod_eq_of_lt hl]

theorem end_of_lapBack (hl : l.row < n) (h : lapBack n pattern here l = 0) :
    l.col + pattern.length ≤ here.col := by
  have hcases := lapBack_cases n pattern here l
  omega

/-- What a step comes to has that lap: the first step looks at what ends by the place where the search
begins, and the last one at what does not. -/
theorem lapBack_eq (hhere : here.row < n) (hstep : step ≤ n) (hrow : l.row = (here.row + n - step) % n)
    (hfirst : step = 0 → l.col + pattern.length ≤ here.col)
    (hlast : step = n → here.col < l.col + pattern.length) : lapBack n pattern here l = step := by
  have hcases := lapBack_cases n pattern here l
  by_cases hwrap : here.row < step
  · rw [Nat.mod_eq_of_lt (by omega)] at hrow
    omega
  · rw [Nat.mod_eq_sub_mod (by omega), Nat.mod_eq_of_lt (by omega)] at hrow
    omega

/-- What comes up at an earlier step, or at the same one further to the right, is met sooner. -/
theorem metSoonerBack_of_lap (hl : l.row < n) (hl' : l'.row < n)
    (h : lapBack n pattern here l < lapBack n pattern here l' ∨
      lapBack n pattern here l = lapBack n pattern here l' ∧ l'.col < l.col) :
    MetSoonerBack (endsBy pattern here) l l' := by
  have hcases := lapBack_cases n pattern here l
  have hcases' := lapBack_cases n pattern here l'
  unfold MetSoonerBack
  cases hb : endsBy pattern here l with
  | true =>
    rw [endsBy_iff] at hb
    cases hb' : endsBy pattern here l' with
    | true =>
      rw [endsBy_iff] at hb'
      exact .inr ⟨rfl, Location.before_iff.mpr (by omega)⟩
    | false => exact .inl ⟨rfl, rfl⟩
  | false =>
    rw [endsBy_eq_false_iff] at hb
    cases hb' : endsBy pattern here l' with
    | true =>
      rw [endsBy_iff] at hb'
      omega
    | false =>
      rw [endsBy_eq_false_iff] at hb'
      exact .inr ⟨rfl, Location.before_iff.mpr (by omega)⟩

def lookBackward (ls : List Text) (pattern : Text) (here : Location) (step : ℕ) : Option Location :=
  let row := (here.row + ls.length - step) % ls.length
  let line := ls.getD row []
  (lastWithin pattern line (if step = 0 then here.col else line.length)).map (⟨row, ·⟩)

theorem findBackward_eq (ls : List Text) (pattern : Text) (here : Location) :
    findBackward ls pattern here
      = (List.range (ls.length + 1)).findSome? (lookBackward ls pattern here) := rfl

/-- A step comes to the rightmost occurrence of its row, the first step to that among those that end by
the place where the search begins. -/
theorem lookBackward_eq_some (hp : pattern ≠ []) (hhere : here.row < ls.length)
    (h : lookBackward ls pattern here step = some l) :
    Occurs ls pattern l ∧ l.row = (here.row + ls.length - step) % ls.length ∧
      (step = 0 → l.col + pattern.length ≤ here.col) ∧
      ∀ l', Occurs ls pattern l' → l'.row = l.row →
        (step = 0 → l'.col + pattern.length ≤ here.col) → l'.col ≤ l.col := by
  obtain ⟨col, hcol, rfl⟩ := Option.map_eq_some_iff.mp h
  obtain ⟨hstop, hstands, hgreatest⟩ := lastWithin_eq_some hp hcol
  refine ⟨⟨Nat.mod_lt _ (by omega), hstands⟩, rfl, fun hstep => ?_, fun l' hl' hrow hfirst => ?_⟩
  · rw [if_pos hstep] at hstop
    exact hstop
  · have hstands' := hl'.2
    rw [hrow] at hstands'
    refine hgreatest l'.col ?_ hstands'
    split_ifs with hstep
    · exact hfirst hstep
    · exact end_le_of_stands hp hstands'

/-- A step that comes to nothing has passed over all occurrences in its row. -/
theorem lookBackward_eq_none (hp : pattern ≠ []) (h : lookBackward ls pattern here step = none)
    (hl : Occurs ls pattern l) (hrow : l.row = (here.row + ls.length - step) % ls.length) :
    step = 0 ∧ here.col < l.col + pattern.length := by
  have hstands := hl.2
  rw [hrow] at hstands
  have hlt := lastWithin_eq_none hp (Option.map_eq_none_iff.mp h) hstands
  split_ifs at hlt with hstep
  · exact ⟨hstep, hlt⟩
  · exact absurd (end_le_of_stands hp hstands) (Nat.not_le_of_lt hlt)

/-- The step at which an occurrence comes up finds something. -/
theorem lookBackward_lap_ne_none (hp : pattern ≠ []) (hl : Occurs ls pattern l) :
    lookBackward ls pattern here (lapBack ls.length pattern here l) ≠ none := by
  intro h
  obtain ⟨hstep, hcol⟩ := lookBackward_eq_none hp h hl (row_of_lapBack hl.1).symm
  have hends := end_of_lapBack hl.1 hstep
  omega

/-- What a search backward finds is met sooner than every other occurrence, where those that end by the
place where it begins come first. -/
theorem finds_backward (hp : pattern ≠ []) (hhere : here.row < ls.length) :
    Finds (Occurs ls pattern) (MetSoonerBack (endsBy pattern here))
      (findBackward ls pattern here) := by
  rw [findBackward_eq]
  refine .of_steps (lapBack ls.length pattern here) (fun l l' => l'.col < l.col)
    (fun l _ => Nat.lt_succ_of_le (lapBack_le hhere)) (fun l hl => lookBackward_lap_ne_none hp hl) ?_
    fun l l' hl hl' => metSoonerBack_of_lap hl.1 hl'.1
  intro step hstep l hl hearlier
  obtain ⟨hoccurs, hrow, hfirst, hgreatest⟩ := lookBackward_eq_some hp hhere hl
  -- The second visit of the first row comes to nothing that the first one has seen.
  have hlast : step = ls.length → here.col < l.col + pattern.length := by
    intro hstep
    have hzero := hearlier 0 (by omega)
    refine (lookBackward_eq_none hp hzero hoccurs ?_).2
    rw [hrow, hstep, Nat.sub_zero, Nat.add_mod_right, Nat.add_sub_cancel]
  refine ⟨hoccurs, lapBack_eq hhere (Nat.le_of_lt_succ hstep) hrow hfirst hlast,
    fun l' hl' hlap hne => ?_⟩
  have hsame : l'.row = l.row := by
    rw [hrow, ← hlap, row_of_lapBack hl'.1]
  have hcol : l'.col ≤ l.col := hgreatest l' hl' hsame fun hstep =>
    end_of_lapBack hl'.1 (hlap.trans hstep)
  have hdiff : l'.col ≠ l.col := fun hcol => hne (Location.eq_of hsame hcol)
  omega

end Backward

section Mirror
variable {P : Location → Prop} {a b l : Location}

/-- Of three locations, reading on from the first the second is met sooner than the third just where,
reading back from the second, the first is. -/
theorem metSooner_iff_back (ha : l ≠ a) (hb : l ≠ b) :
    MetSooner a b l ↔ MetSoonerBack (·.before b) a l := by
  simp only [MetSooner, MetSoonerBack]
  rw [Location.before_of_ne ha.symm, Location.before_of_ne hb.symm]
  cases a.before b <;> cases l.before a <;> cases l.before b <;> simp

/-- A location itself is met last. -/
theorem metSooner_self (h : a ≠ b) : MetSooner a b a := by
  cases hab : a.before b with
  | true => exact .inl ⟨hab, a.before_self⟩
  | false =>
    refine .inr ⟨hab.trans a.before_self.symm, ?_⟩
    rw [Location.before_of_ne h.symm, hab, Bool.not_false]

theorem metSoonerBack_self (h : a ≠ b) : MetSoonerBack (·.before b) a b := by
  cases hab : a.before b with
  | true => exact .inl ⟨hab, b.before_self⟩
  | false =>
    refine .inr ⟨hab.trans b.before_self.symm, ?_⟩
    rw [Location.before_of_ne h.symm, hab, Bool.not_false]

/-- Reading on from one location comes to another before the first one just where, reading back from
that one, the first is met before it. -/
theorem first_iff_first_back (ha : P a) (hb : P b) :
    (∀ l, P l → l ≠ b → MetSooner a b l) ↔ ∀ l, P l → l ≠ a → MetSoonerBack (·.before b) a l := by
  constructor
  · intro hfirst l hl hla
    by_cases hlb : l = b
    · subst hlb
      exact metSoonerBack_self hla.symm
    · exact (metSooner_iff_back hla hlb).mp (hfirst l hl hlb)
  · intro hfirst l hl hlb
    by_cases hla : l = a
    · subst hla
      exact metSooner_self hlb
    · exact (metSooner_iff_back hla hlb).mpr (hfirst l hl hla)

end Mirror

section Return
variable {ls : List Text} {pattern : Text} {here l : Location}

/-- What a search backward finds is also what reading back comes to first, going by where occurrences
begin, just where no occurrence stands across the place that it begins from, or all of them do. -/
theorem mirrors_iff (hp : pattern ≠ []) (hhere : here.row < ls.length)
    (h : findBackward ls pattern here = some l) :
    (∀ l', Occurs ls pattern l' → l' ≠ l → MetSoonerBack (·.before here) l l') ↔
      (∀ l', Occurs ls pattern l' → ¬ Astride pattern here l') ∨
        ∀ l', Occurs ls pattern l' → Astride pattern here l' := by
  obtain ⟨hl, hfirst⟩ := (finds_backward hp hhere).first l h
  constructor
  · intro hmirror
    by_contra hsome
    simp only [not_or, not_forall, not_not] at hsome
    obtain ⟨⟨s, hs, hacross⟩, t, ht, hclear⟩ := hsome
    obtain ⟨hbegins, -⟩ := astride_iff.mp hacross
    -- What is found begins before the place and not before what stands across it, so it stands across.
    have hfound : Astride pattern here l := by
      by_cases hsl : s = l
      · exact hsl ▸ hacross
      · rcases hmirror s hs hsl with ⟨-, hlate⟩ | ⟨hsame, hlt⟩
        · exact absurd (hbegins.symm.trans hlate) Bool.noConfusion
        · have hbefore := Location.before_iff.mp (hsame.trans hbegins)
          rw [Location.before_iff] at hlt
          unfold Astride at hacross ⊢
          omega
    obtain ⟨hbefore, hends⟩ := astride_iff.mp hfound
    -- The same holds of all that is met later, as it does not end by the place either.
    rcases hfirst t ht (fun htl => hclear (htl ▸ hfound)) with ⟨hends', -⟩ | ⟨hsame, hlt⟩
    · exact Bool.false_ne_true (hends.symm.trans hends')
    · refine hclear (astride_iff.mpr ⟨?_, hsame.symm.trans hends⟩)
      rw [Location.before_iff] at hlt hbefore ⊢
      omega
  · rintro (hnone | hall) l' hl' hne
    · have hagree {x : Location} (hx : Occurs ls pattern x) :
          x.before here = endsBy pattern here x := by
        cases hends : endsBy pattern here x with
        | true => exact before_of_endsBy hp hends
        | false =>
          rw [← Bool.not_eq_true]
          exact fun hbefore => hnone x hx (astride_iff.mpr ⟨hbefore, hends⟩)
      have hsooner := hfirst l' hl' hne
      rwa [MetSoonerBack, ← hagree hl, ← hagree hl'] at hsooner
    · obtain ⟨hbefore, hends⟩ := astride_iff.mp (hall l hl)
      obtain ⟨hbefore', -⟩ := astride_iff.mp (hall l' hl')
      rcases hfirst l' hl' hne with ⟨hends', -⟩ | ⟨-, hlt⟩
      · exact absurd (hends.symm.trans hends') Bool.false_ne_true
      · exact .inr ⟨hbefore.trans hbefore'.symm, hlt⟩

/-- A search backward from where a search forward has come to goes back just where no occurrence stands
across that place. -/
theorem forward_and_back_iff (hp : pattern ≠ []) (hhere : Occurs ls pattern here)
    (h : findForward ls pattern here = some l) :
    findBackward ls pattern l = some here ↔ ∀ l', Occurs ls pattern l' → ¬ Astride pattern l l' := by
  obtain ⟨hl, hfirst⟩ := findForward_eq_some hp hhere.1 h
  have hfirst := (first_iff_first_back hhere hl).mp hfirst
  have hself : ¬ ∀ l', Occurs ls pattern l' → Astride pattern l l' :=
    fun hall => not_astride_self (hall l hl)
  constructor
  · intro hback
    exact ((mirrors_iff hp hl.1 hback).mp hfirst).resolve_right hself
  · intro hnone
    cases hback : findBackward ls pattern l with
    | none => exact absurd hl ((finds_backward hp hl.1).nowhere hback l)
    | some x =>
      have hx := ((finds_backward hp hl.1).first x hback).1
      have hmirror := (mirrors_iff hp hl.1 hback).mpr (.inl hnone)
      by_contra hne
      have hne : x ≠ here := fun hx => hne (congrArg some hx)
      exact (hmirror here hhere hne.symm).asymm (hfirst x hx hne)

/-- A search forward from where a search backward has come to goes back just where no occurrence stands
across the place that the first began from. -/
theorem back_and_forward_iff (hp : pattern ≠ []) (hhere : Occurs ls pattern here)
    (h : findBackward ls pattern here = some l) :
    findForward ls pattern l = some here ↔
      ∀ l', Occurs ls pattern l' → ¬ Astride pattern here l' := by
  obtain ⟨hl, -⟩ := (finds_backward hp hhere.1).first l h
  have hself : ¬ ∀ l', Occurs ls pattern l' → Astride pattern here l' :=
    fun hall => not_astride_self (hall here hhere)
  rw [findForward_eq_some_iff hp hl.1, first_iff_first_back hl hhere, mirrors_iff hp hhere.1 h]
  exact ⟨fun h => h.2.resolve_right hself, fun h => ⟨hhere, .inl h⟩⟩

end Return

namespace Desk
variable {d : Desk} {pattern : String} {l : Location}

theorem find_backward (d : Desk) (pattern : String) :
    (d.find pattern .backward).2 = findBackward d.area.lines pattern.toList d.area.cursor := by
  unfold find
  cases findBackward d.area.lines pattern.toList d.area.cursor <;> rfl

/-- A search either way goes to an occurrence, if there is one. -/
theorem find_of_occurs (hc : d.area.cursor.Within d.area.lines) (hp : pattern.toList ≠ [])
    (hl : Occurs d.area.lines pattern.toList l) (way : Direction) :
    ∃ x, (d.find pattern way).2 = some x ∧ (d.find pattern way).1.area.cursor = x ∧
      Occurs d.area.lines pattern.toList x := by
  have hfinds : ∃ sooner, Finds (Occurs d.area.lines pattern.toList) sooner (d.find pattern way).2 := by
    cases way with
    | forward => exact ⟨_, d.find_forward pattern ▸ finds_forward hp hc.row⟩
    | backward => exact ⟨_, d.find_backward pattern ▸ finds_backward hp hc.row⟩
  obtain ⟨sooner, hfinds⟩ := hfinds
  cases hfound : (d.find pattern way).2 with
  | none => exact absurd hl (hfinds.nowhere hfound l)
  | some x =>
    have hx := (hfinds.first x hfound).1
    refine ⟨x, rfl, ?_, hx⟩
    rw [find_moves, hfound, Option.elim_some]
    exact (hx.within hp).clampTo_eq

theorem perform?_search {a : Action} (hk : a.kind = .search) :
    d.perform? a = some (d.applySearch a.name a.pattern, none) := by
  simp only [perform?, hk]

/-- What a search leaves of a text area does not depend on the rest of the desk. -/
theorem area_find {d' : Desk} (h : d'.area = d.area) (pattern : String) (way : Direction) :
    (d'.find pattern way).1.area = (d.find pattern way).1.area := by
  obtain ⟨state, area, anchor, asks, outputs⟩ := d'
  obtain rfl : area = d.area := h
  unfold find
  cases way <;> simp only <;> split <;> rfl

theorem applySearch_again (d : Desk) (hp : pattern ≠ "") {name : String}
    (hn : Direction.ofSearch? name = none) :
    d.applySearch (some name) (some pattern) = (d.find pattern (if name = "search-prev" then
      d.state.search.direction.opposite else d.state.search.direction)).1 := by
  have hkeeps : (some pattern).filter (· ≠ "") = some pattern := by simp [hp]
  simp only [applySearch, Option.bind_some, hn, hkeeps, Option.some.injEq]

/-- A search that does not begin anew only moves, to what it finds. -/
theorem apply_search (d : Desk) (hp : pattern ≠ "") {name : String}
    (hn : Direction.ofSearch? name = none) :
    let now := (d.apply (Action.search name (some pattern))).1
    now.area.cursor = (d.find pattern (if name = "search-prev" then
      d.state.search.direction.opposite else d.state.search.direction)).1.area.cursor ∧
      now.area.lines = d.area.lines ∧ now.state = d.state := by
  intro now
  let a := Action.search name (some pattern)
  have hsearch := (d.begun a).applySearch_again hp hn
  have hstate : (d.begun a).state = d.state := rfl
  rw [hstate] at hsearch
  generalize (if name = "search-prev" then d.state.search.direction.opposite
    else d.state.search.direction) = way at hsearch ⊢
  have hperform : (d.begun a).perform? a = some (((d.begun a).find pattern way).1, none) := by
    rw [perform?_search rfl]
    exact congrArg (fun d' => some (d', none)) hsearch
  obtain ⟨os, happly⟩ := apply_of_perform hperform
  have hfound : ((d.begun a).find pattern way).1.area.lines = d.area.lines ∧
      ((d.begun a).find pattern way).1.state = d.state := by
    rw [find_moves]
    cases ((d.begun a).find pattern way).2 <;> exact ⟨rfl, rfl⟩
  have hcursor : ((d.begun a).find pattern way).1.area.cursor = (d.find pattern way).1.area.cursor := by
    rw [area_find (show (d.begun a).area = d.area from rfl)]
  have hnow : now = _ := congrArg Prod.fst happly
  rw [hnow]
  exact ⟨hcursor, hfound⟩

/-- A search on from an occurrence and a search the other way after it lead back to the occurrence just
where no occurrence stands across the place from which they look back. -/
theorem search_returns_iff (d : Desk) (hp : pattern ≠ "")
    (hhere : Occurs d.area.lines pattern.toList d.area.cursor) :
    let next := (d.apply (Action.search "search-next" (some pattern))).1
    let back := (next.apply (Action.search "search-prev" (some pattern))).1
    let turn := if d.state.search.direction = .forward then next.area.cursor else d.area.cursor
    back.area.cursor = d.area.cursor ↔
      ∀ l, Occurs d.area.lines pattern.toList l → ¬ Astride pattern.toList turn l := by
  intro next back turn
  have hp' : pattern.toList ≠ [] := fun h => hp (String.toList_inj.mp h)
  have hc := hhere.within hp'
  obtain ⟨hto, hlines, hstate⟩ := d.apply_search hp (show Direction.ofSearch? "search-next" = none from rfl)
  obtain ⟨hback, -, -⟩ := next.apply_search hp (show Direction.ofSearch? "search-prev" = none from rfl)
  obtain ⟨x, hx, hcursor, hoccurs⟩ := find_of_occurs hc hp' hhere d.state.search.direction
  rw [if_neg (by decide), hcursor] at hto
  have hnext : Occurs next.area.lines pattern.toList next.area.cursor := by
    rw [hlines, hto]
    exact hoccurs
  obtain ⟨y, hy, hcursor', -⟩ := find_of_occurs (hnext.within hp') hp' hnext
    next.state.search.direction.opposite
  rw [if_pos rfl, hcursor'] at hback
  have hreturn : back.area.cursor = d.area.cursor ↔
      (next.find pattern next.state.search.direction.opposite).2 = some d.area.cursor := by
    rw [hback, hy, Option.some_inj]
  rw [hreturn, hstate]
  simp only [turn]
  cases hway : d.state.search.direction with
  | forward =>
    rw [hway, find_forward] at hx
    rw [Direction.opposite, find_backward, hlines, hto, if_pos rfl]
    exact forward_and_back_iff hp' hhere hx
  | backward =>
    rw [hway, find_backward] at hx
    rw [Direction.opposite, find_forward, hlines, hto, if_neg (by decide)]
    exact back_and_forward_iff hp' hhere hx

/-- A search backward finds the occurrence, of all that there are, that reading back comes to first, from
those that end by the cursor around the start of the text to those that do not; and it moves there. It
finds nothing, and changes nothing, just where the pattern is in no line. So it goes by where occurrences
end: what it finds is also the first of those that begin before the cursor, and then of the others, just
where no occurrence stands across the cursor or all do. And a search the other way after a search on from
an occurrence leads back to it just where none stands across the place from which they look back. -/
theorem finds_previous (d : Desk) (hc : d.area.cursor.Within d.area.lines) (pattern : String)
    (hp : pattern ≠ "") :
    let ls := d.area.lines
    let here := d.area.cursor
    let p := pattern.toList
    let search := d.find pattern .backward
    (∀ l, search.2 = some l ↔
      Occurs ls p l ∧ ∀ l', Occurs ls p l' → l' ≠ l → MetSoonerBack (endsBy p here) l l') ∧
    (search.2 = none ↔ ∀ line ∈ ls, ¬ p <:+: line) ∧
    (∀ l, search.2 = some l → search.1 = d.move l ∧ search.1.area.cursor = l ∧
      ((∀ l', Occurs ls p l' → l' ≠ l → MetSoonerBack (·.before here) l l') ↔
        (∀ l', Occurs ls p l' → ¬ Astride p here l') ∨ ∀ l', Occurs ls p l' → Astride p here l')) ∧
    (search.2 = none → search.1 = d) ∧
    (Occurs ls p here →
      let next := (d.apply (Action.search "search-next" (some pattern))).1
      let back := (next.apply (Action.search "search-prev" (some pattern))).1
      let turn := if d.state.search.direction = .forward then next.area.cursor else here
      back.area.cursor = here ↔ ∀ l, Occurs ls p l → ¬ Astride p turn l) := by
  intro ls here p search
  have hp' : p ≠ [] := fun h => hp (String.toList_inj.mp h)
  have hresult : search.2 = findBackward ls p here := d.find_backward pattern
  have hdesk : search.1 = search.2.elim d d.move := d.find_moves pattern .backward
  have hfinds : Finds (Occurs ls p) (MetSoonerBack (endsBy p here)) search.2 :=
    hresult ▸ finds_backward hp' hc.row
  refine ⟨fun l => hfinds.eq_some_iff fun _ _ => MetSoonerBack.asymm,
    hfinds.eq_none_iff.trans forall_not_occurs_iff, fun l hfound => ?_, fun hnone => ?_,
    fun hhere => d.search_returns_iff hp hhere⟩
  · have hmoved : search.1 = d.move l := by rw [hdesk, hfound, Option.elim_some]
    have hl : Occurs ls p l := (hfinds.first l hfound).1
    refine ⟨hmoved, ?_, mirrors_iff hp' hc.row (hresult ▸ hfound)⟩
    rw [hmoved]
    exact (hl.within hp').clampTo_eq
  · rw [hdesk, hnone, Option.elim_none]

/-- From an occurrence in the second row the one before it is the last of two that overlap in the first
row; and a search on around the end of the text is undone by one back around its start. -/
theorem finds_previous_of_overlapping :
    let d : Desk := { state := {}, area :=
      { text := ['a', 'a', 'a', '\n', 'a', 'a'], cursor := ⟨1, 0⟩ } }
    let next := (d.apply (Action.search "search-next" (some "aa"))).1
    d.area.cursor.Within d.area.lines ∧ "aa" ≠ "" ∧ Occurs d.area.lines "aa".toList ⟨1, 0⟩ ∧
    (d.find "aa" .backward).1.area.cursor = ⟨0, 1⟩ ∧
    (∀ l, Occurs d.area.lines "aa".toList l → l ≠ ⟨0, 1⟩ →
      MetSoonerBack (·.before ⟨1, 0⟩) ⟨0, 1⟩ l) ∧
    next.area.cursor = ⟨0, 0⟩ ∧
    (next.apply (Action.search "search-prev" (some "aa"))).1.area.cursor = ⟨1, 0⟩ := by
  intro d next
  have hc : d.area.cursor.Within d.area.lines := ⟨by decide, by decide⟩
  have hp : "aa" ≠ "" := by decide
  have hhere : Occurs d.area.lines "aa".toList ⟨1, 0⟩ := ⟨by decide, by decide +kernel⟩
  obtain ⟨-, -, hmoves, -, hreturns⟩ := finds_previous d hc "aa" hp
  have hfound : (d.find "aa" .backward).2 = some ⟨0, 1⟩ := by decide +kernel
  have hnext : next.area.cursor = ⟨0, 0⟩ := by decide +kernel
  obtain ⟨-, hmoved, hmirror⟩ := hmoves _ hfound
  refine ⟨hc, hp, hhere, hmoved, hmirror.mpr (.inl fun l _ hacross => ?_), hnext,
    (hreturns hhere).mpr fun l _ hacross => ?_⟩
  · exact absurd hacross.2.1 (Nat.not_lt_zero _)
  · have hlt : l.col < next.area.cursor.col := hacross.2.1
    rw [hnext] at hlt
    exact absurd hlt (Nat.not_lt_zero _)

/-- From inside an occurrence a search backward passes over the one that the cursor is in, although
reading back comes to where it begins before anything else. -/
theorem occurrence_around_cursor_missed :
    let d : Desk := { state := {}, area :=
      { text := ['f', 'o', 'o', '\n', 'f', 'o', 'o'], cursor := ⟨1, 1⟩ } }
    d.area.cursor.Within d.area.lines ∧ "foo" ≠ "" ∧ Occurs d.area.lines "foo".toList ⟨1, 0⟩ ∧
    (∀ l, Occurs d.area.lines "foo".toList l → l ≠ ⟨1, 0⟩ →
      MetSoonerBack (·.before ⟨1, 1⟩) ⟨1, 0⟩ l) ∧
    (d.find "foo" .backward).2 = some ⟨0, 0⟩ := by
  intro d
  refine ⟨⟨by decide, by decide⟩, by decide, ⟨by decide, by decide +kernel⟩, fun l _ hne => ?_,
    by decide +kernel⟩
  cases hb : l.before ⟨1, 1⟩ with
  | false => exact .inl ⟨rfl, hb⟩
  | true =>
    have hstart : Location.before ⟨1, 0⟩ l = false := by
      rw [Location.before_iff] at hb
      rw [Location.before_eq_false_iff]
      simp only at hb ⊢
      omega
    refine .inr ⟨hb.symm, ?_⟩
    rw [Location.before_of_ne hne, hstart, Bool.not_false]

end Desk
end ModalEditing
