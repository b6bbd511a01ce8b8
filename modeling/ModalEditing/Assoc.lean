namespace ModalEditing.Assoc
variable {κ α : Type} [DecidableEq κ]

def get? (k : κ) : List (κ × α) → Option α
  | [] => none
  | (k', v) :: m => if k' = k then some v else get? k m

def put (k : κ) (v : α) : List (κ × α) → List (κ × α)
  | [] => [(k, v)]
  | (k', v') :: m => if k' = k then (k, v) :: m else (k', v') :: put k v m

def erase (k : κ) : List (κ × α) → List (κ × α)
  | [] => []
  | (k', v') :: m => if k' = k then m else (k', v') :: erase k m

def putAll (m : List (κ × α)) (entries : List (κ × α)) : List (κ × α) :=
  entries.foldl (fun m e => put e.1 e.2 m) m

def ofList (entries : List (κ × α)) : List (κ × α) := putAll [] entries

theorem get?_put_self (k : κ) (v : α) (m : List (κ × α)) : get? k (put k v m) = some v := by
  fun_induction put k v m <;> simp_all [get?]

theorem get?_put_of_ne {k k' : κ} (h : k' ≠ k) (v : α) (m : List (κ × α)) :
    get? k (put k' v m) = get? k m := by
  fun_induction put k' v m <;> simp_all [get?]

end ModalEditing.Assoc
