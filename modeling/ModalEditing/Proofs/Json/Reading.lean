import ModalEditing.Proofs.Json.RoundTrip

namespace ModalEditing

namespace Number

theorem value_lt (t : Text) : value t < Nat.pow 10 t.length := by
  induction t using List.reverseRecOn with
  | nil => decide
  | append_singleton t c ih =>
    rw [List.length_append, List.length_singleton]
    show value (t ++ [c]) < 10 ^ (t.length + 1)
    change value t < 10 ^ t.length at ih
    rw [pow_succ]
    by_cases hc : c.isDigit = true
    · have hdigit := (isDigit_iff c).mp hc
      have hzero : '0'.toNat = 48 := rfl
      rw [value_append t hc]
      omega
    · have hvalue : value (t ++ [c]) = value t := by
        simp [value, List.foldl_append, hc]
      rw [hvalue]
      omega

end Number

namespace Json
namespace Reader
variable {d fuel : ℕ} {t rest : Text} {j : Json}

/-- A number that is read is whole and not too long, or a floating-point number. -/
theorem number_cases {limit : ℕ} (h : number (some limit) t = some (j, rest)) :
    (∃ n : ℤ, j = .int n ∧ n.natAbs < Nat.pow 10 limit) ∨ ∃ x, j = .float x := by
  simp only [number, Option.bind_eq_bind, Option.bind_eq_some_iff] at h
  obtain ⟨⟨ws, t'⟩, -, h⟩ := h
  split at h
  · split at h
    · cases h
    · rename_i hlong
      obtain ⟨rfl, -⟩ := Prod.mk.inj (Option.some.inj h)
      have hlength : ws.length ≤ limit := Nat.not_lt.mp fun hlt => hlong (decide_eq_true hlt)
      have hvalue := Nat.lt_of_lt_of_le (Number.value_lt ws)
        (Nat.pow_le_pow_right (by decide) hlength)
      refine .inl ⟨_, rfl, ?_⟩
      split
      · rw [Int.natAbs_neg]
        exact hvalue
      · exact hvalue
  · obtain ⟨rfl, -⟩ := Prod.mk.inj (Option.some.inj h)
    exact .inr ⟨_, rfl⟩

theorem number_shaped (h : number (some Number.digitLimit) t = some (j, rest)) : Shaped d j := by
  rcases number_cases h with ⟨n, rfl, hn⟩ | ⟨x, rfl⟩
  · exact shaped_int.mpr hn
  · cases d <;> trivial

/-- What the reader yields with this much fuel is as `Shaped` says. -/
structure Yields (fuel : ℕ) : Prop where
  value : ∀ {d t j rest}, Reader.value (.within d) fuel t = .ok (j, rest) → Shaped d j
  items : ∀ {d t js rest}, Reader.items (.within d) fuel t = .ok (js, rest) → ∀ j ∈ js, Shaped d j
  fields : ∀ {d before t fs rest}, Shaped (d + 1) (.obj before) →
    Reader.fields (.within d) fuel before t = .ok (fs, rest) → Shaped (d + 1) (.obj fs)

theorem bind_eq_ok {ε α β : Type} {x : Except ε α} {f : α → Except ε β} {b : β}
    (h : (x >>= f) = .ok b) : ∃ a, x = .ok a ∧ f a = .ok b := by
  cases x with
  | error e => cases h
  | ok a => exact ⟨a, rfl, h⟩

theorem map_eq_ok {ε α β : Type} {x : Except ε α} {f : α → β} {b : β} (h : x.map f = .ok b) :
    ∃ a, x = .ok a ∧ f a = b := by
  cases x with
  | error e => cases h
  | ok a => exact ⟨a, rfl, Except.ok.inj h⟩

theorem Yields.items_succ (h : Yields fuel) {js : List Json}
    (hjs : Reader.items (.within d) (fuel + 1) t = .ok (js, rest)) : ∀ j ∈ js, Shaped d j := by
  rw [Reader.items] at hjs
  obtain ⟨⟨i, t'⟩, hi, hjs⟩ := bind_eq_ok hjs
  have hshaped := h.value hi
  dsimp only at hjs
  split at hjs
  · obtain ⟨rfl, -⟩ := Prod.mk.inj (Except.ok.inj hjs)
    exact List.forall_mem_singleton.mpr hshaped
  · obtain ⟨⟨is, t''⟩, his, hjs⟩ := bind_eq_ok hjs
    obtain ⟨rfl, -⟩ := Prod.mk.inj (Except.ok.inj hjs)
    exact List.forall_mem_cons.mpr ⟨hshaped, h.items his⟩
  · cases hjs

/-- A field put into an object leaves its keys distinct. -/
theorem shaped_put {k : Str} {fs : List (Str × Json)} (hfs : Shaped (d + 1) (.obj fs))
    (hj : Shaped d j) : Shaped (d + 1) (.obj (Assoc.put k j fs)) := by
  refine ⟨Assoc.nodup_put hfs.1, fun f hf => ?_⟩
  rcases Assoc.mem_put hf with rfl | hf
  · exact hj
  · exact hfs.2 f hf

theorem Yields.fields_succ (h : Yields fuel) {before fs : List (Str × Json)}
    (hbefore : Shaped (d + 1) (.obj before))
    (hfs : Reader.fields (.within d) (fuel + 1) before t = .ok (fs, rest)) :
    Shaped (d + 1) (.obj fs) := by
  rw [Reader.fields.eq_def] at hfs
  dsimp only at hfs
  split at hfs
  · obtain ⟨⟨k, t'⟩, -, hfs⟩ := bind_eq_ok hfs
    dsimp only at hfs
    split at hfs
    · obtain ⟨⟨i, t''⟩, hi, hfs⟩ := bind_eq_ok hfs
      have hput := shaped_put (k := k) hbefore (h.value hi)
      dsimp only at hfs
      split at hfs
      · obtain ⟨rfl, -⟩ := Prod.mk.inj (Except.ok.inj hfs)
        exact hput
      · exact h.fields hput hfs
      · cases hfs
    · cases hfs
  · cases hfs

theorem Yields.value_succ (h : Yields fuel)
    (hj : Reader.value (.within d) (fuel + 1) t = .ok (j, rest)) : Shaped d j := by
  rw [Reader.value.eq_def] at hj
  dsimp only at hj
  split at hj
  · obtain ⟨⟨s, t'⟩, -, hj⟩ := map_eq_ok hj
    obtain ⟨rfl, -⟩ := Prod.mk.inj hj
    cases d <;> trivial
  · cases d with
    | zero => cases hj
    | succ d =>
      have hinner : (Limits.within (d + 1)).inner? = some (.within d) := rfl
      simp only [hinner] at hj
      split at hj
      · obtain ⟨rfl, -⟩ := Prod.mk.inj (Except.ok.inj hj)
        exact fun j hj => absurd hj List.not_mem_nil
      · obtain ⟨⟨js, t'⟩, hjs, hj⟩ := map_eq_ok hj
        obtain ⟨rfl, -⟩ := Prod.mk.inj hj
        exact h.items hjs
  · cases d with
    | zero => cases hj
    | succ d =>
      have hinner : (Limits.within (d + 1)).inner? = some (.within d) := rfl
      simp only [hinner] at hj
      split at hj
      · obtain ⟨rfl, -⟩ := Prod.mk.inj (Except.ok.inj hj)
        exact shaped_empty
      · obtain ⟨⟨fs, t'⟩, hfs, hj⟩ := map_eq_ok hj
        obtain ⟨rfl, -⟩ := Prod.mk.inj hj
        exact h.fields shaped_empty hfs
  -- All that begins otherwise can only be a number.
  case h_10 =>
    cases hn : number (some Number.digitLimit) t with
    | none =>
      rw [Limits.within, hn] at hj
      cases hj
    | some r =>
      rw [Limits.within, hn] at hj
      obtain rfl := Except.ok.inj hj
      exact number_shaped hn
  all_goals
    obtain ⟨rfl, -⟩ := Prod.mk.inj (Except.ok.inj hj)
    cases d <;> trivial

theorem yields (fuel : ℕ) : Yields fuel := by
  induction fuel with
  | zero =>
    refine ⟨?_, ?_, ?_⟩
    all_goals
      intros
      contradiction
  | succ fuel ih => exact ⟨ih.value_succ, ih.items_succ, ih.fields_succ⟩

end Reader

theorem read_shaped {d : ℕ} {t : Text} {j : Json} (h : Json.read (.within d) t = .ok j) :
    Shaped d j := by
  obtain ⟨⟨i, rest⟩, hi, h⟩ := Reader.bind_eq_ok h
  dsimp only at h
  split at h
  · obtain rfl := Except.ok.inj h
    exact (Reader.yields _).value hi
  · cases h

end Json
end ModalEditing
