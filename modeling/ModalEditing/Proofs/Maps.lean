import Mathlib.Data.List.Induction
import Mathlib.Data.List.Nodup
import ModalEditing.Assoc

namespace ModalEditing.Assoc
variable {κ α β : Type} [DecidableEq κ] {k : κ} {v : α} {m m' : List (κ × α)}

theorem put_of_new (h : k ∉ m.map Prod.fst) : put k v m = m ++ [(k, v)] := by
  induction m with
  | nil => rfl
  | cons e m ih =>
    rw [List.map_cons, List.mem_cons, not_or] at h
    rw [put, if_neg (Ne.symm h.1), ih h.2, List.cons_append]

theorem mem_put {e : κ × α} (h : e ∈ put k v m) : e = (k, v) ∨ e ∈ m := by
  fun_induction put k v m <;> grind

theorem keys_put (k : κ) (v : α) (m : List (κ × α)) : (put k v m).map Prod.fst
    = if k ∈ m.map Prod.fst then m.map Prod.fst else m.map Prod.fst ++ [k] := by
  fun_induction put k v m <;> grind

theorem nodup_put (h : (m.map Prod.fst).Nodup) : ((put k v m).map Prod.fst).Nodup := by
  rw [keys_put]
  split
  · exact h
  · rename_i hk
    exact List.nodup_append.mpr ⟨h, List.nodup_singleton k, by grind⟩

theorem mem_of_get? (h : get? k m = some v) : (k, v) ∈ m := by
  fun_induction get? k m <;> grind

theorem not_mem_of_get? (h : get? k m = none) : k ∉ m.map Prod.fst := by
  fun_induction get? k m <;> grind

theorem get?_eq_some (hm : (m.map Prod.fst).Nodup) : get? k m = some v ↔ (k, v) ∈ m := by
  refine ⟨mem_of_get?, fun h => ?_⟩
  fun_induction get? k m <;> grind

/-- Where a key is found does not depend on the order. -/
theorem get?_perm (hm : (m.map Prod.fst).Nodup) (h : m.Perm m') : get? k m' = get? k m := by
  have hm' : (m'.map Prod.fst).Nodup := (h.map Prod.fst).nodup_iff.mp hm
  apply Option.ext
  intro v
  rw [get?_eq_some hm', get?_eq_some hm, h.mem_iff]

theorem get?_map (f : α → β) (m : List (κ × α)) :
    get? k (m.map fun e => (e.1, f e.2)) = (get? k m).map f := by
  fun_induction get? k m <;> simp_all [get?]

theorem put_put_self (k : κ) (v v' : α) (m : List (κ × α)) : put k v (put k v' m) = put k v m := by
  induction m with
  | nil => simp [put]
  | cons e m ih =>
    by_cases h : e.1 = k
    · simp [put, h]
    · simp [put, h, ih]

theorem erase_append (h : k ∉ m.map Prod.fst) (m' : List (κ × α)) : erase k (m ++ m') = m ++ erase k m' := by
  induction m with
  | nil => rfl
  | cons e m ih =>
    rw [List.map_cons, List.mem_cons, not_or] at h
    rw [List.cons_append, erase, if_neg (Ne.symm h.1), ih h.2, List.cons_append]

theorem ofList_append (es es' : List (κ × α)) : ofList (es ++ es') = putAll (ofList es) es' :=
  List.foldl_append

theorem ofList_concat (es : List (κ × α)) (e : κ × α) :
    ofList (es ++ [e]) = put e.1 e.2 (ofList es) := ofList_append es [e]

/-- A key is mapped to what was given for it last. -/
theorem get?_ofList (k : κ) (es : List (κ × α)) : get? k (ofList es) = es.reverse.lookup k := by
  induction es using List.reverseRecOn with
  | nil => rfl
  | append_singleton es e ih =>
    rw [ofList_concat, List.reverse_concat]
    by_cases h : e.1 = k
    · subst h
      rw [get?_put_self, List.lookup_cons_self]
    · rw [get?_put_of_ne h, ih, List.lookup_cons, beq_false_of_ne (Ne.symm h)]

/-- Entries that are put in go before those that were there. -/
theorem get?_putAll (k : κ) (m es : List (κ × α)) :
    get? k (putAll m es) = (get? k (ofList es)).or (get? k m) := by
  induction es using List.reverseRecOn with
  | nil => rfl
  | append_singleton es e ih =>
    have hput : putAll m (es ++ [e]) = put e.1 e.2 (putAll m es) := List.foldl_append
    rw [hput, ofList_concat]
    by_cases h : e.1 = k
    · subst h
      rw [get?_put_self, get?_put_self, Option.some_or]
    · rw [get?_put_of_ne h, get?_put_of_ne h, ih]

/-- Entries under new keys are put in at the end. -/
theorem putAll_of_new {es : List (κ × α)} (h : (es.map Prod.fst).Nodup)
    (hnew : (es.map Prod.fst).Disjoint (m.map Prod.fst)) : putAll m es = m ++ es := by
  induction es generalizing m with
  | nil => exact (List.append_nil m).symm
  | cons e es ih =>
    rw [List.map_cons, List.nodup_cons] at h
    rw [List.map_cons, List.disjoint_cons_left] at hnew
    have hrest : (es.map Prod.fst).Disjoint ((m ++ [e]).map Prod.fst) := by
      rw [List.map_append, List.disjoint_append_right]
      exact ⟨hnew.2, List.disjoint_singleton.mpr h.1⟩
    rw [putAll, List.foldl_cons, put_of_new hnew.1]
    exact (ih h.2 hrest).trans (List.append_assoc m [e] es)

theorem ofList_of_nodup (h : (m.map Prod.fst).Nodup) : ofList m = m :=
  putAll_of_new h (List.disjoint_nil_right _)

theorem nodup_ofList (es : List (κ × α)) : ((ofList es).map Prod.fst).Nodup := by
  induction es using List.reverseRecOn with
  | nil => exact List.nodup_nil
  | append_singleton es e ih =>
    rw [ofList_concat]
    exact nodup_put ih

/-- The keys stand in the order in which they were first given. -/
theorem keys_ofList (es : List (κ × α)) : (ofList es).map Prod.fst = (es.map Prod.fst).eraseDups := by
  induction es using List.reverseRecOn with
  | nil => rfl
  | append_singleton es e ih =>
    rw [ofList_concat, keys_put, ih, List.map_append, List.eraseDups_append]
    simp only [List.mem_eraseDups]
    by_cases h : e.1 ∈ es.map Prod.fst
    · rw [if_pos h]
      simp [List.removeAll, h]
    · rw [if_neg h]
      simp [List.removeAll, List.eraseDups_cons, h]

end ModalEditing.Assoc
