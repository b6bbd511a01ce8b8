import Mathlib.Data.List.Nodup
import ModalEditing.Proofs.Json.Strings

namespace ModalEditing.Json

/-- Neither a floating-point number nor half of a surrogate pair is in the value. -/
inductive Exact : Json → Prop
  | null : Exact .null
  | bool (b : Bool) : Exact (.bool b)
  | int (n : Int) : Exact (.int n)
  | str {s : Str} (hs : s.Whole) : Exact (.str s)
  | arr {items : List Json} (h : ∀ j ∈ items, Exact j) : Exact (.arr items)
  | obj {fields : List (Str × Json)} (hk : ∀ f ∈ fields, f.1.Whole) (h : ∀ f ∈ fields, Exact f.2) :
    Exact (.obj fields)

/-- The keys of each object in the value differ, no whole number is too long, and arrays and objects are
nested at most this deep. -/
def Shaped : (depth : ℕ) → Json → Prop
  | _, .int n => n.natAbs < Nat.pow 10 Number.digitLimit
  | 0, .arr _ => False
  | depth + 1, .arr items => ∀ j ∈ items, Shaped depth j
  | 0, .obj _ => False
  | depth + 1, .obj fields => (fields.map Prod.fst).Nodup ∧ ∀ f ∈ fields, Shaped depth f.2
  | _, _ => True

theorem exact_empty : Exact (.obj []) :=
  .obj (fun _ hf => absurd hf List.not_mem_nil) (fun _ hf => absurd hf List.not_mem_nil)

section
variable {depth : ℕ} {j : Json} {items : List Json} {fields : List (Str × Json)}

theorem shaped_empty : Shaped (depth + 1) (.obj []) :=
  ⟨List.nodup_nil, fun _ hf => absurd hf List.not_mem_nil⟩

theorem orderedItems_eq_map (items : List Json) : orderedItems items = items.map ordered := by
  induction items with
  | nil => rfl
  | cons j js ih => rw [orderedItems, ih, List.map_cons]

theorem orderedFields_eq_map (fields : List (Str × Json)) :
    orderedFields fields = fields.map fun f => (f.1, f.2.ordered) := by
  induction fields with
  | nil => rfl
  | cons f fs ih =>
    obtain ⟨k, j⟩ := f
    rw [orderedFields, ih, List.map_cons]

/-- The fields of an object in the order of their keys, their values in order as well. -/
def inOrder (fields : List (Str × Json)) : List (Str × Json) :=
  (orderedFields fields).mergeSort fun a b => a.1.le b.1

theorem ordered_obj (fields : List (Str × Json)) : ordered (.obj fields) = .obj (inOrder fields) := by
  rw [ordered, inOrder]

theorem inOrder_perm (fields : List (Str × Json)) :
    (inOrder fields).Perm (fields.map fun f => (f.1, f.2.ordered)) := by
  rw [inOrder, orderedFields_eq_map]
  exact List.mergeSort_perm _ _

theorem mem_inOrder {f : Str × Json} : f ∈ inOrder fields ↔ ∃ g ∈ fields, (g.1, g.2.ordered) = f := by
  rw [(inOrder_perm fields).mem_iff, List.mem_map]

theorem keys_inOrder (fields : List (Str × Json)) :
    ((inOrder fields).map Prod.fst).Perm (fields.map Prod.fst) := by
  have h := (inOrder_perm fields).map Prod.fst
  rw [List.map_map] at h
  exact h

theorem Exact.ordered (h : Exact j) : Exact j.ordered := by
  induction h with
  | null => exact .null
  | bool b => exact .bool b
  | int n => exact .int n
  | str hs => exact .str hs
  | arr _ ih =>
    rw [Json.ordered, orderedItems_eq_map]
    refine .arr fun j hj => ?_
    obtain ⟨i, hi, rfl⟩ := List.mem_map.mp hj
    exact ih i hi
  | obj hk _ ih =>
    rw [ordered_obj]
    refine .obj ?_ ?_
    all_goals
      intro f hf
      obtain ⟨g, hg, rfl⟩ := mem_inOrder.mp hf
    · exact hk g hg
    · exact ih g hg

theorem Shaped.ordered (h : Shaped depth j) : Shaped depth j.ordered := by
  induction depth generalizing j with
  | zero => cases j <;> exact h
  | succ depth ih =>
    cases j with
    | arr items =>
      rw [Json.ordered, orderedItems_eq_map]
      intro j hj
      obtain ⟨i, hi, rfl⟩ := List.mem_map.mp hj
      exact ih (h i hi)
    | obj fields =>
      rw [ordered_obj]
      refine ⟨(keys_inOrder fields).nodup_iff.mpr h.1, fun f hf => ?_⟩
      obtain ⟨g, hg, rfl⟩ := mem_inOrder.mp hf
      exact ih (h.2 g hg)
    | _ => exact h

theorem itemsObstacle?_eq_none :
    itemsObstacle? depth items = none ↔ ∀ j ∈ items, obstacle? depth j = none := by
  induction items with
  | nil => simp [itemsObstacle?]
  | cons j js ih => simp [itemsObstacle?, ih]

theorem fieldsObstacle?_eq_none :
    fieldsObstacle? depth fields = none ↔ ∀ f ∈ fields, obstacle? depth f.2 = none := by
  induction fields with
  | nil => simp [fieldsObstacle?]
  | cons f fs ih =>
    obtain ⟨k, j⟩ := f
    simp [fieldsObstacle?, ih]

theorem shaped_int {n : Int} : Shaped depth (.int n) ↔ n.natAbs < Nat.pow 10 Number.digitLimit := by
  rw [Shaped]

theorem obstacle?_of_shaped (h : Shaped depth j) : obstacle? depth j = none := by
  induction depth generalizing j with
  | zero =>
    cases j with
    | int n => rw [obstacle?, if_pos (shaped_int.mp h)]
    | arr items => exact h.elim
    | obj fields => exact h.elim
    | _ => rfl
  | succ depth ih =>
    cases j with
    | int n => rw [obstacle?, if_pos (shaped_int.mp h)]
    | arr items =>
      rw [obstacle?, itemsObstacle?_eq_none]
      exact fun j hj => ih (h j hj)
    | obj fields =>
      rw [obstacle?, fieldsObstacle?_eq_none]
      exact fun f hf => ih (h.2 f hf)
    | _ => rfl

end
end ModalEditing.Json
