import Mathlib.Data.List.Basic
import Mathlib.Logic.Function.Iterate
import ModalEditing.Proofs.TextArea.Motion

namespace ModalEditing

namespace Location
variable {ls : List Text} {l s : Location}

def all (ls : List Text) : List Location :=
  (List.range ls.length).flatMap fun row =>
    (List.range ((ls.getD row []).length + 1)).map fun col => ⟨row, col⟩

theorem mem_all : l ∈ all ls ↔ l.Within ls := by
  obtain ⟨row, col⟩ := l
  simp only [all, List.mem_flatMap, List.mem_map, List.mem_range, mk.injEq]
  constructor
  · rintro ⟨row, hrow, col, hcol, rfl, rfl⟩
    exact ⟨hrow, Nat.le_of_lt_succ hcol⟩
  · rintro ⟨hrow, hcol⟩
    exact ⟨row, hrow, col, Nat.lt_succ_of_le hcol, rfl, rfl⟩

theorem pairwise_all (ls : List Text) : (all ls).Pairwise fun a b => a.before b = true := by
  rw [all, List.pairwise_flatMap]
  constructor
  · intro row _
    refine List.pairwise_map.mpr (List.pairwise_lt_range.imp fun hlt => ?_)
    exact before_iff.mpr (.inr ⟨rfl, hlt⟩)
  · refine List.pairwise_lt_range.imp fun hlt a ha b hb => ?_
    obtain ⟨col, -, rfl⟩ := List.mem_map.mp ha
    obtain ⟨col', -, rfl⟩ := List.mem_map.mp hb
    exact before_iff.mpr (.inl hlt)

/-- In a list in some order the first element with a property is followed by those that come after it. -/
theorem filter_eq_cons {α : Type} {R : α → α → Prop} {as : List α} {p q : α → Bool} {s : α}
    (has : as.Pairwise R) (hasymm : ∀ a b, R a b → ¬ R b a) (hs : s ∈ as) (hp : p s = true)
    (hfirst : ∀ a ∈ as, p a = true → a ≠ s → R s a)
    (hq : ∀ a ∈ as, (q a = true ↔ p a = true ∧ R s a)) : as.filter p = s :: as.filter q := by
  have hirrefl (a : α) : ¬ R a a := fun h => hasymm a a h h
  obtain ⟨bs, cs, rfl⟩ := List.append_of_mem hs
  rw [List.pairwise_append, List.pairwise_cons] at has
  obtain ⟨-, ⟨hbehind, -⟩, hearlier⟩ := has
  have hearlier (a : α) (ha : a ∈ bs) : R a s := hearlier a ha s List.mem_cons_self
  have hp_bs : bs.filter p = [] := by
    refine List.filter_eq_nil_iff.mpr fun a ha hpa => ?_
    have hne : a ≠ s := fun h => hirrefl s (h ▸ hearlier a ha)
    exact hasymm a s (hearlier a ha) (hfirst a (List.mem_append_left _ ha) hpa hne)
  have hq_bs : bs.filter q = [] := by
    refine List.filter_eq_nil_iff.mpr fun a ha hqa => ?_
    exact hasymm a s (hearlier a ha) ((hq a (List.mem_append_left _ ha)).mp hqa).2
  have hq_s : ¬ q s = true := fun hqs => hirrefl s ((hq s hs).mp hqs).2
  have hcs : cs.filter p = cs.filter q := by
    refine List.filter_congr fun a ha => ?_
    have hiff := hq a (List.mem_append_right _ (List.mem_cons_of_mem _ ha))
    rw [and_iff_left (hbehind a ha)] at hiff
    exact Bool.eq_iff_iff.mpr hiff.symm
  rw [List.filter_append, List.filter_append, List.filter_cons_of_pos hp, List.filter_cons_of_neg hq_s,
    hp_bs, hq_bs, hcs, List.nil_append, List.nil_append]

theorem not_before_of_before {a b : Location} (h : a.before b = true) : ¬ b.before a = true :=
  Bool.not_eq_true _ ▸ before_asymm h

/-- The first of the locations with a property is followed by those that come after it. -/
theorem filter_all_eq_cons {p q : Location → Bool} (hs : s.Within ls) (hp : p s = true)
    (hfirst : ∀ l, l.Within ls → p l = true → l ≠ s → s.before l = true)
    (hq : ∀ l, l.Within ls → (q l = true ↔ p l = true ∧ s.before l = true)) :
    (all ls).filter p = s :: (all ls).filter q :=
  filter_eq_cons (pairwise_all ls) (fun _ _ => not_before_of_before) (mem_all.mpr hs) hp
    (fun l hl => hfirst l (mem_all.mp hl)) fun l hl => hq l (mem_all.mp hl)

/-- Backwards the last of them comes first, and then those before it. -/
theorem filter_all_reverse_eq_cons {p q : Location → Bool} (hs : s.Within ls) (hp : p s = true)
    (hlast : ∀ l, l.Within ls → p l = true → l ≠ s → l.before s = true)
    (hq : ∀ l, l.Within ls → (q l = true ↔ p l = true ∧ l.before s = true)) :
    (all ls).reverse.filter p = s :: (all ls).reverse.filter q :=
  filter_eq_cons (R := fun a b => b.before a = true) (List.pairwise_reverse.mpr (pairwise_all ls))
    (fun _ _ => not_before_of_before) (List.mem_reverse.mpr (mem_all.mpr hs)) hp
    (fun l hl => hlast l (mem_all.mp (List.mem_reverse.mp hl)))
    fun l hl => hq l (mem_all.mp (List.mem_reverse.mp hl))

end Location

namespace Motion

theorem iterate_eq {α : Type} [DecidableEq α] (f : α → α) (n : ℕ) (a : α) : iterate f n a = f^[n] a := by
  induction n generalizing a with
  | zero => rfl
  | succ n ih =>
    rw [iterate, Function.iterate_succ_apply]
    split
    · rename_i h
      rw [h, Function.iterate_fixed h]
    · exact ih (f a)

/-- A step that goes to the first stop left, or where none is left to an end from which there is none,
goes to the `n`-th stop, or to that end, in `n` steps. -/
theorem iterate_stops {f : Location → Location} {stops : Location → List Location} {last : Location}
    {P : Location → Prop} (hkeeps : ∀ l, P l → P (f l))
    (hstep : ∀ l, P l → stops l = f l :: stops (f l) ∨ stops l = [] ∧ f l = last)
    (hlast : stops last = []) {l : Location} (hl : P l) (n : ℕ) :
    iterate f (n + 1) l = (stops l).getD n last := by
  rw [iterate_eq]
  induction n generalizing l with
  | zero =>
    rcases hstep l hl with h | ⟨h, hf⟩
    · rw [h]
      rfl
    · rw [h]
      exact hf
  | succ n ih =>
    rw [Function.iterate_succ_apply, ih (hkeeps l hl)]
    rcases hstep l hl with h | ⟨h, hf⟩
    · rw [h, List.getD_cons_succ]
    · rw [h, hf, hlast]
      rfl

end Motion
end ModalEditing
