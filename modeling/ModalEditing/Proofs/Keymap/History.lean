import ModalEditing.Proofs.Keymap.Lawful

namespace ModalEditing.Keymap

inductive Request
  | register (b : Binding) (replace : Bool)
  | registerMany (bs : List Binding) (replace : Bool)
  | unregister (group : String) (keys : List String)
  | loadDefaults (replace : Bool) (extra : List Binding)

def answer (t : Keymap) : Request → Keymap × Option Conflict
  | .register b replace =>
    match t.register b replace with
    | .ok t' => (t', none)
    | .error e => (t, some e)
  | .registerMany bs replace => t.registerMany replace bs
  | .unregister group keys => ((t.unregister group keys).1, none)
  | .loadDefaults replace extra => t.loadDefaults replace extra

def after (t : Keymap) (rs : List Request) : Keymap := rs.foldl (fun t r => (t.answer r).1) t

def reached (logger : Option String) (rs : List Request) : Keymap := after { logger := logger } rs

theorem Lawful.answer {t : Keymap} (h : t.Lawful) (r : Request) : (t.answer r).1.Lawful := by
  cases r with
  | register b replace =>
    simp only [Keymap.answer]
    split
    · rename_i t' hr
      exact h.register hr
    · exact h
  | registerMany bs replace => exact h.registerMany replace bs
  | unregister group keys => exact h.unregister group keys
  | loadDefaults replace extra => exact h.loadDefaults replace extra

theorem Lawful.after {t : Keymap} (h : t.Lawful) (rs : List Request) : (t.after rs).Lawful := by
  induction rs generalizing t with
  | nil => exact h
  | cons r rs ih => exact ih (h.answer r)

theorem lawful_reached (logger : Option String) (rs : List Request) : (reached logger rs).Lawful :=
  (Lawful.empty logger).after rs

/-- The bindings that are registered before the first that clashes. -/
def accepted (t : Keymap) (replace : Bool) : List Binding → List Binding
  | [] => []
  | b :: bs =>
    match t.register b replace with
    | .ok t' => b :: accepted t' replace bs
    | .error _ => []

def changes (t : Keymap) : Request → Nat
  | .register b replace => (t.accepted replace [b]).length
  | .registerMany bs replace => (t.accepted replace bs).length
  | .unregister group keys => (t.unregister group keys).2.toList.length
  | .loadDefaults replace extra =>
    (t.accepted replace defaults).length +
      match t.registerMany replace defaults with
      | (t', none) => (t'.accepted true extra).length
      | (_, some _) => 0

def changesOf (t : Keymap) : List Request → Nat
  | [] => 0
  | r :: rs => t.changes r + (t.answer r).1.changesOf rs

theorem revision_register {t t' : Keymap} {b : Binding} {replace : Bool}
    (h : t.register b replace = .ok t') : t'.revision = t.revision + 1 := by
  rw [register_eq_ok h, revision_change]

theorem revision_registerMany (t : Keymap) (replace : Bool) (bs : List Binding) :
    (t.registerMany replace bs).1.revision = t.revision + (t.accepted replace bs).length := by
  induction bs generalizing t with
  | nil => rfl
  | cons b bs ih =>
    cases hr : t.register b replace with
    | ok t' =>
      simp only [registerMany, accepted, hr, ih t', revision_register hr, List.length_cons]
      omega
    | error e => simp [registerMany, accepted, hr]

theorem revision_unregister (t : Keymap) (group : String) (keys : List String) :
    (t.unregister group keys).1.revision
      = t.revision + (t.unregister group keys).2.toList.length := by
  unfold unregister
  split
  · rfl
  · split
    · rfl
    · simp

theorem revision_answer (t : Keymap) (r : Request) :
    (t.answer r).1.revision = t.revision + t.changes r := by
  cases r with
  | register b replace =>
    cases hr : t.register b replace with
    | ok t' => simp [answer, changes, accepted, hr, revision_register hr]
    | error e => simp [answer, changes, accepted, hr]
  | registerMany bs replace => exact revision_registerMany t replace bs
  | unregister group keys => exact revision_unregister t group keys
  | loadDefaults replace extra =>
    have hd := revision_registerMany t replace defaults
    simp only [answer, changes, loadDefaults]
    cases hr : t.registerMany replace defaults with
    | mk t' e =>
      rw [hr] at hd
      cases e with
      | some e => exact hd
      | none =>
        have ht : t'.revision = t.revision + (t.accepted replace defaults).length := hd
        simp only [revision_registerMany, ht]
        omega

theorem revision_after (t : Keymap) (rs : List Request) :
    (t.after rs).revision = t.revision + t.changesOf rs := by
  induction rs generalizing t with
  | nil => rfl
  | cons r rs ih =>
    change ((t.answer r).1.after rs).revision = _
    rw [ih, revision_answer, changesOf, Nat.add_assoc]

theorem registerMany_eq_self {t : Keymap} {replace : Bool} {bs : List Binding}
    (h : (t.accepted replace bs).length = 0) : (t.registerMany replace bs).1 = t := by
  cases bs with
  | nil => rfl
  | cons b bs =>
    cases hr : t.register b replace with
    | ok t' => simp [accepted, hr] at h
    | error e => simp [registerMany, hr]

/-- A request without a change leaves all as it was. -/
theorem answer_eq_self {t : Keymap} {r : Request} (h : t.changes r = 0) : (t.answer r).1 = t := by
  cases r with
  | register b replace =>
    cases hr : t.register b replace with
    | ok t' => simp [changes, accepted, hr] at h
    | error e => simp [answer, hr]
  | registerMany bs replace => exact registerMany_eq_self h
  | unregister group keys =>
    simp only [changes, unregister] at h
    simp only [answer, unregister]
    split
    · rfl
    · rename_i hg
      simp only [hg] at h
      split
      · rfl
      · rename_i hf
        simp [hf] at h
  | loadDefaults replace extra =>
    simp only [changes] at h
    have hd := registerMany_eq_self (Nat.eq_zero_of_add_eq_zero_right h)
    simp only [answer, loadDefaults]
    cases hr : t.registerMany replace defaults with
    | mk t' e =>
      obtain rfl : t' = t := by rwa [hr] at hd
      cases e with
      | some e => rfl
      | none =>
        simp only [hr] at h
        exact registerMany_eq_self (Nat.eq_zero_of_add_eq_zero_left h)

/-- Registrations that are cut short leave what those before the clash have made. -/
theorem registerMany_stops {t t' : Keymap} {replace : Bool} {bs : List Binding} {e : Conflict}
    (h : t.registerMany replace bs = (t', some e)) :
    ∃ done rest, bs = done ++ e.binding :: rest ∧ t.registerMany replace done = (t', none) ∧
      t'.register e.binding replace = .error e := by
  induction bs generalizing t with
  | nil => simp [registerMany] at h
  | cons b bs ih =>
    cases hr : t.register b replace with
    | ok t₁ =>
      simp only [registerMany, hr] at h
      obtain ⟨done, rest, hbs, hdone, hstop⟩ := ih h
      exact ⟨b :: done, rest, by rw [hbs, List.cons_append], by simp only [registerMany, hr, hdone],
        hstop⟩
    | error e' =>
      simp only [registerMany, hr, Prod.mk.injEq, Option.some.injEq] at h
      obtain ⟨rfl, rfl⟩ := h
      obtain rfl := (register_eq_error_iff.mp hr).2.2
      exact ⟨[], bs, rfl, rfl, hr⟩

/-- Registrations that all succeed are the registrations one by one. -/
theorem after_registers {t t' : Keymap} {replace : Bool} {bs : List Binding}
    (h : t.registerMany replace bs = (t', none)) : t.after (bs.map (.register · replace)) = t' := by
  induction bs generalizing t with
  | nil => exact congrArg Prod.fst h
  | cons b bs ih =>
    cases hr : t.register b replace with
    | ok t₁ =>
      simp only [registerMany, hr] at h
      simpa only [List.map_cons, after, List.foldl_cons, answer, hr] using ih h
    | error e => simp [registerMany, hr] at h

/-- In any history no key of a group is both a command and the leader of one, each binding is found
under its own keys in its own group, a new binding clashes with one of them at most, the revision
counts the changes, and a clash that is not to be replaced changes nothing, nor what a list of
registrations has made before it. -/
theorem reached_unambiguous (logger : Option String) (rs : List Request) :
    let t := reached logger rs
    (∀ g key, t.find? g [key] = none ∨ t.isLeader g key = false) ∧
    (∀ g keys b, t.find? g keys = some b ↔ b ∈ t.bucket g ∧ b.sequence = keys) ∧
    (∀ g, ∀ b ∈ t.bucket g, b.group = g) ∧
    (∀ b, (t.conflicts b).length ≤ 1 ∧ ∀ c ∈ t.conflicts b, c ∈ t.bindings) ∧
    t.revision = changesOf { logger := logger } rs ∧
    (∀ b replace e, (t.register b replace = .error e ↔
        replace = false ∧ t.conflicts b ≠ [] ∧ e = ⟨b, t.conflicts b⟩) ∧
      (t.register b replace = .error e → t.answer (.register b replace) = (t, some e))) ∧
    (∀ bs replace t' e, t.registerMany replace bs = (t', some e) →
      ∃ done rest, bs = done ++ e.binding :: rest ∧ t.registerMany replace done = (t', none) ∧
        t.after (done.map (.register · replace)) = t' ∧
        t'.register e.binding replace = .error e) := by
  intro t
  have law : t.Lawful := lawful_reached logger rs
  refine ⟨?_, ?_, law.group_eq, ?_, ?_, ?_, ?_⟩
  · intro g key
    cases hf : t.find? g [key] with
    | none => exact .inl rfl
    | some b =>
      right
      obtain ⟨hb, hs⟩ := find?_eq_some hf
      obtain ⟨rfl, hd⟩ := Binding.sequence_eq_single.mp hs
      exact law.not_isLeader_of_single hb hd
  · exact fun g keys b => law.find?_eq_some_iff
  · intro b
    refine ⟨law.conflicts_length b, ?_⟩
    intro c hc
    exact (mem_bindings t c).mpr ⟨b.group, (mem_conflicts hc).1⟩
  · have h := revision_after { logger := logger } rs
    rwa [Nat.zero_add] at h
  · intro b replace e
    exact ⟨register_eq_error_iff, fun h => by simp only [answer, h]⟩
  · intro bs replace t' e h
    obtain ⟨done, rest, hbs, hdone, hstop⟩ := registerMany_stops h
    exact ⟨done, rest, hbs, hdone, after_registers hdone, hstop⟩

end ModalEditing.Keymap
