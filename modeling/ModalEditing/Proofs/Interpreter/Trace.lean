import ModalEditing.Proofs.Interpreter.Consistent

namespace ModalEditing

def latest? {α β : Type} (find : β → Option α) (xs : List β) : Option α :=
  (xs.filterMap find).getLast?

theorem latest?_append {α β : Type} (find : β → Option α) (xs ys : List β) :
    latest? find (xs ++ ys) = (latest? find ys).or (latest? find xs) := by
  rw [latest?, List.filterMap_append, List.getLast?_append]
  rfl

namespace Session
variable {s : Session}

/-- What each call of a run brings in the session it is made in, in order. -/
def gather {β : Type} (f : Session → Call → List β) (s : Session) : List Call → List β
  | [] => []
  | c :: cs => f s c ++ gather f (s.step c) cs

/-- Every call of a run is made in a session that suits it. -/
def Along (p : Session → Call → Prop) (s : Session) : List Call → Prop
  | [] => True
  | c :: cs => p s c ∧ Along p (s.step c) cs

theorem along_append {p : Session → Call → Prop} {cs cs' : List Call} :
    s.Along p (cs ++ cs') ↔ s.Along p cs ∧ (s.run cs).Along p cs' := by
  induction cs generalizing s with
  | nil => simp [Along]
  | cons c cs ih => simp only [List.cons_append, Along, ih, run_cons, and_assoc]

theorem along_of_forall {p : Session → Call → Prop} (h : ∀ s c, p s c) (s : Session)
    (cs : List Call) : s.Along p cs := by
  induction cs generalizing s with
  | nil => trivial
  | cons c cs ih => exact ⟨h s c, ih (s.step c)⟩

/-- A view of the state is the latest value that a run brings, and the view at its start where it brings
none, if the same is true of each call. -/
theorem latest?_gather {α β : Type} {f : Session → Call → List β} {find : β → Option α}
    {v : State → Option α} {p : Session → Call → Prop}
    (hp : ∀ s c, s.state.Consistent → p s c →
      (latest? find (f s c)).or (v s.state) = v (s.step c).state)
    (hs : s.state.Consistent) {cs : List Call} (h : s.Along p cs) :
    (latest? find (s.gather f cs)).or (v s.state) = v (s.run cs).state := by
  induction cs generalizing s with
  | nil => rfl
  | cons c cs ih =>
    -- What the first call leaves is the view that the other calls start from.
    rw [gather, latest?_append, Option.or_assoc, hp s c hs h.1, run_cons]
    exact ih (consistent_step hs c) h.2

end Session
end ModalEditing
