import ModalEditing.Proofs.Json.Reading

namespace ModalEditing.Json
namespace Reader
variable {α β : Type} {d e fuel : ℕ} {t : Text}

/-- The reading did not end on a collection that lies too deep. -/
def Settled (r : Except ReadError α) : Prop := ∀ c, r ≠ .error (.tooDeep c)

theorem Settled.of_bind {x : Except ReadError α} {f : α → Except ReadError β}
    (h : Settled (x >>= f)) : Settled x := by
  rintro c rfl
  exact h c rfl

theorem Settled.of_map {x : Except ReadError α} {f : α → β} (h : Settled (x.map f)) : Settled x := by
  rintro c rfl
  exact h c rfl

theorem bind_congr {x y : Except ReadError α} {f g : α → Except ReadError β}
    (hs : Settled (x >>= f)) (hx : Settled x → y = x)
    (hf : ∀ a, Settled (f a) → g a = f a) : y >>= g = x >>= f := by
  rw [hx hs.of_bind]
  cases x with
  | error e => rfl
  | ok a => exact hf a hs

/-- What is settled with this much fuel is settled alike where collections may be nested deeper. -/
structure Deepens (fuel : ℕ) : Prop where
  value : ∀ {d e t}, d ≤ e → Settled (Reader.value (.within d) fuel t) →
    Reader.value (.within e) fuel t = Reader.value (.within d) fuel t
  items : ∀ {d e t}, d ≤ e → Settled (Reader.items (.within d) fuel t) →
    Reader.items (.within e) fuel t = Reader.items (.within d) fuel t
  fields : ∀ {d e before t}, d ≤ e → Settled (Reader.fields (.within d) fuel before t) →
    Reader.fields (.within e) fuel before t = Reader.fields (.within d) fuel before t

theorem Deepens.items_succ (h : Deepens fuel) (hde : d ≤ e)
    (hs : Settled (Reader.items (.within d) (fuel + 1) t)) :
    Reader.items (.within e) (fuel + 1) t = Reader.items (.within d) (fuel + 1) t := by
  rw [Reader.items] at hs
  rw [Reader.items, Reader.items]
  refine bind_congr hs (h.value hde) ?_
  rintro ⟨j, t'⟩ hs
  dsimp only at hs ⊢
  split at hs
  · rfl
  · exact bind_congr hs (h.items hde) fun _ _ => rfl
  · rfl

theorem Deepens.fields_succ (h : Deepens fuel) {before : List (Str × Json)} (hde : d ≤ e)
    (hs : Settled (Reader.fields (.within d) (fuel + 1) before t)) :
    Reader.fields (.within e) (fuel + 1) before t = Reader.fields (.within d) (fuel + 1) before t := by
  rw [Reader.fields.eq_def] at hs
  rw [Reader.fields.eq_def, Reader.fields.eq_def]
  dsimp only at hs ⊢
  split at hs
  · refine bind_congr hs (fun _ => rfl) ?_
    rintro ⟨k, t'⟩ hs
    dsimp only at hs ⊢
    split at hs
    · refine bind_congr hs (h.value hde) ?_
      rintro ⟨j, t''⟩ hs
      dsimp only at hs ⊢
      split at hs
      · rfl
      · exact h.fields hde hs
      · rfl
    · rfl
  · rfl

/-- Each collection takes one from both depths. -/
theorem Deepens.value_succ (h : Deepens fuel) (hde : d ≤ e)
    (hs : Settled (Reader.value (.within d) (fuel + 1) t)) :
    Reader.value (.within e) (fuel + 1) t = Reader.value (.within d) (fuel + 1) t := by
  have hinner (n : ℕ) : (Limits.within (n + 1)).inner? = some (.within n) := rfl
  rw [Reader.value.eq_def] at hs
  rw [Reader.value.eq_def, Reader.value.eq_def]
  dsimp only at hs ⊢
  split at hs
  · rfl
  · cases d with
    | zero => exact absurd rfl (hs .array)
    | succ d =>
      obtain ⟨e, rfl⟩ : ∃ n, e = n + 1 := ⟨e - 1, by omega⟩
      simp only [hinner] at hs ⊢
      split at hs
      · rfl
      · rw [h.items (Nat.le_of_succ_le_succ hde) hs.of_map]
  · cases d with
    | zero => exact absurd rfl (hs .object)
    | succ d =>
      obtain ⟨e, rfl⟩ : ∃ n, e = n + 1 := ⟨e - 1, by omega⟩
      simp only [hinner] at hs ⊢
      split at hs
      · rfl
      · rw [h.fields (Nat.le_of_succ_le_succ hde) hs.of_map]
  all_goals rfl

theorem deepens (fuel : ℕ) : Deepens fuel := by
  induction fuel with
  | zero => exact ⟨fun _ _ => rfl, fun _ _ => rfl, fun _ _ => rfl⟩
  | succ fuel ih => exact ⟨ih.value_succ, ih.items_succ, ih.fields_succ⟩

end Reader

/-- A text that is read, or is no JSON, is read alike where collections may be nested deeper. -/
theorem read_deeper {d e : ℕ} (hde : d ≤ e) {t : Text} (hs : Reader.Settled (read (.within d) t)) :
    read (.within e) t = read (.within d) t :=
  Reader.bind_congr hs ((Reader.deepens _).value hde) fun _ _ => rfl

theorem Shaped.deeper {d e : ℕ} {j : Json} (h : Shaped d j) (hde : d ≤ e) : Shaped e j := by
  induction d generalizing e j with
  | zero =>
    cases j with
    | int n => exact shaped_int.mpr (shaped_int.mp h)
    | arr items => exact h.elim
    | obj fields => exact h.elim
    | _ => cases e <;> trivial
  | succ d ih =>
    obtain ⟨e, rfl⟩ : ∃ n, e = n + 1 := ⟨e - 1, by omega⟩
    have hde : d ≤ e := Nat.le_of_succ_le_succ hde
    cases j with
    | arr items => exact fun j hj => ih (h j hj) hde
    | obj fields => exact ⟨h.1, fun f hf => ih (h.2 f hf) hde⟩
    | _ => exact h

end ModalEditing.Json
