import Mathlib.Data.Nat.Notation
import ModalEditing.Bus.Exchange

namespace ModalEditing.Exchange
variable {π : Type} {x y : Exchange π} {ds rest : List (Deed π)} {event : String} {payload : π}
variable {f g : Exchange π → String → π → Exchange π × Option Stop}

/-- A deed that delivers nothing, and what it makes of an exchange. -/
inductive Changes : Deed π → Exchange π → Exchange π → Prop
  | subscribe (x : Exchange π) (label event : String) (script : List (List (Deed π))) :
    Changes (.subscribe label event script) x (x.subscribe label event script)
  | again (x : Exchange π) (label event listener : String) :
    Changes (.again label event listener) x (x.again label event listener)
  | unsubscribe (x : Exchange π) (label : String) :
    Changes (.unsubscribe label) x (x.unsubscribe label)

theorem deed_cases (x : Exchange π) (d : Deed π) : (∃ y, Changes d x y) ∨
    (∃ event payload, d = .emit event payload) ∨ ∃ text, d = .raise text := by
  cases d with
  | subscribe label event script => exact .inl ⟨_, .subscribe x label event script⟩
  | again label event listener => exact .inl ⟨_, .again x label event listener⟩
  | unsubscribe label => exact .inl ⟨_, .unsubscribe x label⟩
  | emit event payload => exact .inr (.inl ⟨event, payload, rfl⟩)
  | raise text => exact .inr (.inr ⟨text, rfl⟩)

theorem perform_of_changes {d : Deed π} (h : Changes d x y) (rest : List (Deed π)) :
    perform f x (d :: rest) = perform f y rest := by
  cases h <;> rfl

theorem perform_emit_of_none (h : f x event payload = (y, none)) (rest : List (Deed π)) :
    perform f x (.emit event payload :: rest) = perform f y rest := by
  rw [perform, h]

theorem perform_emit_of_some {s : Stop} (h : f x event payload = (y, some s)) (rest : List (Deed π)) :
    perform f x (.emit event payload :: rest) = (y, some s) := by
  rw [perform, h]

def begun (x : Exchange π) (payload : π) (k : ℕ) (l : Listener π) : Exchange π :=
  { x with seen := x.seen ++ [(l.name, payload)],
           listeners := x.listeners.set k { l with script := l.script.tail } }

theorem call_of_some {k : ℕ} {l : Listener π} (hl : x.listeners[k]? = some l) :
    call f x payload k = perform f (x.begun payload k l) (l.script.head?.getD []) := by
  rw [call, hl]
  rfl

theorem call_of_none {k : ℕ} (hl : x.listeners[k]? = none) : call f x payload k = (x, none) := by
  rw [call, hl]

theorem callAll_of_none {k : ℕ} (h : call f x payload k = (y, none)) (ks : List ℕ) :
    callAll f x payload (k :: ks) = callAll f y payload ks := by
  rw [callAll, h]

theorem callAll_of_some {k : ℕ} {s : Stop} (h : call f x payload k = (y, some s)) (ks : List ℕ) :
    callAll f x payload (k :: ks) = (y, some s) := by
  rw [callAll, h]

def owed (ls : List (Listener π)) : ℕ := ls.foldr (fun l n => scriptWeight l.script + n) 0

theorem weight_eq_owed (x : Exchange π) : x.weight = owed x.listeners := rfl

theorem owed_cons (l : Listener π) (ls : List (Listener π)) :
    owed (l :: ls) = scriptWeight l.script + owed ls := rfl

theorem owed_concat (ls : List (Listener π)) (l : Listener π) :
    owed (ls ++ [l]) = owed ls + scriptWeight l.script := by
  induction ls with
  | nil => rw [List.nil_append, owed_cons, Nat.add_comm]
  | cons l' ls ih => rw [List.cons_append, owed_cons, owed_cons, ih, Nat.add_assoc]

theorem owed_set {ls : List (Listener π)} {k : ℕ} {l : Listener π} (h : ls[k]? = some l)
    (l' : Listener π) :
    owed (ls.set k l') + scriptWeight l.script = owed ls + scriptWeight l'.script := by
  induction ls generalizing k with
  | nil => cases h
  | cons first ls ih =>
    cases k with
    | zero =>
      obtain rfl : first = l := Option.some.inj h
      rw [List.set_cons_zero, owed_cons, owed_cons]
      omega
    | succ k =>
      have hrest := ih (k := k) h
      rw [List.set_cons_succ, owed_cons, owed_cons]
      omega

/-- A deed that is done leaves one less to do. -/
theorem Changes.weight {d : Deed π} (h : Changes d x y) : y.weight + 1 ≤ x.weight + Deed.weight d := by
  cases h with
  | subscribe _ label event script =>
    have hmore : (x.subscribe label event script).weight = x.weight + scriptWeight script :=
      owed_concat x.listeners ⟨label, script⟩
    rw [hmore]
    exact Nat.le_refl _
  | again _ label event listener =>
    have hsame : (x.again label event listener).weight = x.weight := by
      unfold Exchange.again
      split <;> rfl
    rw [hsame]
    exact Nat.le_refl _
  | unsubscribe _ label =>
    have hsame : (x.unsubscribe label).weight = x.weight := by
      unfold Exchange.unsubscribe
      split <;> rfl
    rw [hsame]
    exact Nat.le_refl _

/-- What a listener does when it is called is taken from its script. -/
theorem weight_begun {k : ℕ} {l : Listener π} (hl : x.listeners[k]? = some l) (payload : π) :
    (x.begun payload k l).weight + deedsWeight (l.script.head?.getD []) = x.weight := by
  have hset := owed_set hl { l with script := l.script.tail }
  have hscript : scriptWeight l.script
      = deedsWeight (l.script.head?.getD []) + scriptWeight l.script.tail := by
    cases l.script <;> rfl
  rw [weight_eq_owed, weight_eq_owed]
  simp only [begun] at hset ⊢
  omega

/-- Two ways to deliver come to the same, not too deep, and with no more deeds left than this. -/
structure Agree (r r' : Exchange π × Option Stop) (left : ℕ) : Prop where
  same : r = r'
  ends : r.2 ≠ some .tooDeep
  weight : r.1.weight ≤ left

theorem Agree.mono {r r' : Exchange π × Option Stop} {left left' : ℕ} (h : Agree r r' left)
    (hl : left ≤ left') : Agree r r' left' :=
  ⟨h.same, h.ends, Nat.le_trans h.weight hl⟩

theorem Agree.refl {r : Exchange π × Option Stop} (h : r.2 ≠ some .tooDeep) : Agree r r r.1.weight :=
  ⟨rfl, h, Nat.le_refl _⟩

section
variable {depth : ℕ}
variable (h : ∀ (x : Exchange π) (event : String) (payload : π), x.weight < depth →
  Agree (f x event payload) (g x event payload) x.weight)
include h

/-- Where the deliveries agree, so do deeds with no more to deliver, here and in the scripts. -/
theorem agree_perform (hx : x.weight + deedsWeight ds ≤ depth) :
    Agree (perform f x ds) (perform g x ds) (x.weight + deedsWeight ds) := by
  induction ds generalizing x with
  | nil => exact .refl (by simp [perform])
  | cons d rest ih =>
    have hcons : deedsWeight (d :: rest) = Deed.weight d + deedsWeight rest := rfl
    rcases deed_cases x d with ⟨y, hy⟩ | ⟨event, payload, rfl⟩ | ⟨text, rfl⟩
    · have hweight := hy.weight
      rw [perform_of_changes hy, perform_of_changes hy]
      exact (ih (by omega)).mono (by omega)
    · -- A nested event is itself a deed, so it begins with one deed less than there are levels.
      have hone : Deed.weight (.emit event payload) = 1 := rfl
      obtain ⟨hsame, hends, hweight⟩ := h x event payload (by omega)
      obtain ⟨⟨y, stop⟩, hr⟩ : ∃ r, f x event payload = r := ⟨_, rfl⟩
      rw [hr] at hsame hends hweight
      have hy : y.weight ≤ x.weight := hweight
      cases stop with
      | none =>
        rw [perform_emit_of_none hr, perform_emit_of_none hsame.symm]
        exact (ih (by omega)).mono (by omega)
      | some s =>
        rw [perform_emit_of_some hr, perform_emit_of_some hsame.symm]
        exact (Agree.refl hends).mono (Nat.le_add_right_of_le hy)
    · exact (Agree.refl (r := (x, some (.raised text))) (by simp)).mono (Nat.le_add_right _ _)

theorem agree_call (hx : x.weight ≤ depth) (payload : π) (k : ℕ) :
    Agree (call f x payload k) (call g x payload k) x.weight := by
  cases hl : x.listeners[k]? with
  | none =>
    rw [call_of_none hl, call_of_none hl]
    exact .refl (by simp)
  | some l =>
    have hweight := weight_begun hl payload
    rw [call_of_some hl, call_of_some hl]
    exact (agree_perform h (by omega)).mono (by omega)

theorem agree_callAll (hx : x.weight ≤ depth) (payload : π) (ks : List ℕ) :
    Agree (callAll f x payload ks) (callAll g x payload ks) x.weight := by
  induction ks generalizing x with
  | nil => exact .refl (by simp [callAll])
  | cons k ks ih =>
    obtain ⟨hsame, hends, hweight⟩ := agree_call h hx payload k
    obtain ⟨⟨y, stop⟩, hr⟩ : ∃ r, call f x payload k = r := ⟨_, rfl⟩
    rw [hr] at hsame hends hweight
    cases stop with
    | none =>
      rw [callAll_of_none hr, callAll_of_none hsame.symm]
      exact (ih (Nat.le_trans hweight hx)).mono hweight
    | some s =>
      rw [callAll_of_some hr, callAll_of_some hsame.symm]
      exact (Agree.refl hends).mono hweight

end

/-- More levels than deeds left come to the same, however many more. -/
theorem agree_emitWithin {depth depth' : ℕ} (hx : x.weight < depth) (hd : depth ≤ depth')
    (event : String) (payload : π) :
    Agree (emitWithin depth x event payload) (emitWithin depth' x event payload) x.weight := by
  induction depth generalizing x event payload depth' with
  | zero => exact absurd hx (Nat.not_lt_zero _)
  | succ depth ih =>
    -- What is nested has one level less on both sides, for any number of deeds left.
    obtain ⟨n, rfl⟩ : ∃ n, depth' = n + 1 := ⟨depth' - 1, by omega⟩
    exact agree_callAll (fun x event payload hx => ih hx (by omega) event payload) (by omega) payload _

theorem agree_emit {depth : ℕ} (hx : x.weight < depth) (event : String) (payload : π) :
    Agree (emitWithin depth x event payload) (x.emit event payload) x.weight := by
  obtain ⟨hsame, hends, hweight⟩ := agree_emitWithin (Nat.lt_succ_self x.weight) hx event payload
  rw [← hsame]
  exact ⟨rfl, hends, hweight⟩

/-- Delivery without levels: those who listen when it begins are called in order. -/
theorem emit_eq_callAll (x : Exchange π) (event : String) (payload : π) :
    x.emit event payload = callAll emit x payload (x.bus.listeners event) :=
  (agree_callAll (fun _ event payload hx => agree_emit hx event payload) (Nat.le_refl _) payload
    (x.bus.listeners event)).same

theorem emit_ends (x : Exchange π) (event : String) (payload : π) :
    (x.emit event payload).2 ≠ some .tooDeep :=
  (agree_emitWithin (Nat.lt_succ_self x.weight) (Nat.le_refl _) event payload).ends

end ModalEditing.Exchange
