import Mathlib.Data.List.Nodup
import ModalEditing.Keymap.Default

namespace ModalEditing

namespace Binding

/-- The keys of a binding with the same key that is pressed the other number of times. -/
def otherSequence (b : Binding) : List String := if b.doubled then [b.key] else [b.key, b.key]

theorem sequence_eq_iff (a b : Binding) :
    a.sequence = b.sequence ↔ a.key = b.key ∧ a.doubled = b.doubled := by
  unfold sequence
  cases a.doubled <;> cases b.doubled <;> simp

theorem sequence_eq_other_iff (a b : Binding) :
    a.sequence = b.otherSequence ↔ a.key = b.key ∧ a.doubled ≠ b.doubled := by
  unfold sequence otherSequence
  cases a.doubled <;> cases b.doubled <;> simp

/-- Two bindings have the same key just when one's keys are those of the other, once or twice. -/
theorem key_eq_iff (a b : Binding) :
    a.key = b.key ↔ a.sequence = b.sequence ∨ a.sequence = b.otherSequence := by
  rw [sequence_eq_iff, sequence_eq_other_iff]
  tauto

theorem sequence_eq_single {b : Binding} {key : String} :
    b.sequence = [key] ↔ b.key = key ∧ b.doubled = false := by
  unfold sequence
  cases b.doubled <;> simp

theorem leader?_eq_some_iff (b : Binding) (key : String) :
    b.leader? = some key ↔ b.doubled = true ∧ b.key = key := by
  unfold leader?
  cases b.doubled <;> simp

end Binding

namespace Keymap

theorem bucket_change (t : Keymap) (g g' : Group) (bs : List Binding) :
    (t.change g bs).bucket g' = if g' = g then bs else t.bucket g' := by
  cases g <;> cases g' <;> rfl

@[simp] theorem revision_change (t : Keymap) (g : Group) (bs : List Binding) :
    (t.change g bs).revision = t.revision + 1 := by
  cases g <;> rfl

theorem mem_bindings (t : Keymap) (b : Binding) : b ∈ t.bindings ↔ ∃ g, b ∈ t.bucket g := by
  constructor
  · intro hb
    rcases List.mem_append.mp hb with h | h
    · exact ⟨.normal, h⟩
    · exact ⟨.visual, h⟩
  · rintro ⟨g, hb⟩
    cases g
    · exact List.mem_append_left _ hb
    · exact List.mem_append_right _ hb

theorem find?_eq_some {t : Keymap} {g : Group} {keys : List String} {b : Binding}
    (h : t.find? g keys = some b) : b ∈ t.bucket g ∧ b.sequence = keys := by
  refine ⟨List.mem_of_find?_eq_some h, ?_⟩
  simpa using List.find?_some h

theorem find?_eq_none {t : Keymap} {g : Group} {keys : List String} :
    t.find? g keys = none ↔ ∀ b ∈ t.bucket g, b.sequence ≠ keys := by
  simp [find?]

theorem isLeader_iff (t : Keymap) (g : Group) (key : String) :
    t.isLeader g key = true ↔ ∃ b ∈ t.bucket g, b.doubled = true ∧ b.key = key := by
  simp [isLeader, Binding.leader?_eq_some_iff]

theorem conflicts_eq (t : Keymap) (b : Binding) :
    t.conflicts b = (t.find? b.group b.sequence).toList ++ (t.find? b.group b.otherSequence).toList :=
  rfl

theorem mem_conflicts {t : Keymap} {b c : Binding} (h : c ∈ t.conflicts b) :
    c ∈ t.bucket b.group ∧ c.key = b.key := by
  rw [conflicts_eq, List.mem_append, Option.mem_toList, Option.mem_toList] at h
  rcases h with h | h
  · exact ⟨(find?_eq_some h).1, (Binding.key_eq_iff c b).mpr (.inl (find?_eq_some h).2)⟩
  · exact ⟨(find?_eq_some h).1, (Binding.key_eq_iff c b).mpr (.inr (find?_eq_some h).2)⟩

/-- A binding of the group with the same key is stood for by a conflict with the same keys. -/
theorem exists_conflict {t : Keymap} {b x : Binding} (hx : x ∈ t.bucket b.group)
    (hkey : x.key = b.key) : ∃ c ∈ t.conflicts b, c.sequence = x.sequence := by
  have found : ∀ keys, x.sequence = keys → ∃ c, t.find? b.group keys = some c ∧ c.sequence = keys := by
    intro keys hk
    cases h : t.find? b.group keys with
    | none => exact absurd hk (find?_eq_none.mp h x hx)
    | some c => exact ⟨c, rfl, (find?_eq_some h).2⟩
  rcases (Binding.key_eq_iff x b).mp hkey with h | h
  all_goals
    obtain ⟨c, hc, hs⟩ := found _ h
    exact ⟨c, by simp [conflicts_eq, hc], hs.trans h.symm⟩

/-- A binding clashes with nothing just where its key is free in its group. -/
theorem conflicts_eq_nil_iff (t : Keymap) (b : Binding) :
    t.conflicts b = [] ↔ ∀ x ∈ t.bucket b.group, x.key ≠ b.key := by
  constructor
  · intro h x hx hkey
    obtain ⟨c, hc, -⟩ := exists_conflict hx hkey
    simp [h] at hc
  · intro h
    apply List.eq_nil_iff_forall_not_mem.mpr
    intro c hc
    exact h c (mem_conflicts hc).1 (mem_conflicts hc).2

/-- The bindings that stay when `b` takes its place: those with other keys. -/
def others (t : Keymap) (b : Binding) : List Binding :=
  (t.bucket b.group).filter (·.key ≠ b.key)

theorem filter_conflicts (t : Keymap) (b : Binding) :
    ((t.bucket b.group).filter fun x => !((t.conflicts b).map Binding.sequence).contains x.sequence)
      = t.others b := by
  apply List.filter_congr
  intro x hx
  by_cases hkey : x.key = b.key
  · obtain ⟨c, hc, hs⟩ := exists_conflict hx hkey
    have hmem : ((t.conflicts b).map Binding.sequence).contains x.sequence = true :=
      List.contains_iff_mem.mpr (List.mem_map.mpr ⟨c, hc, hs⟩)
    rw [hmem]
    simp [hkey]
  · have hno : x.sequence ∉ (t.conflicts b).map Binding.sequence := by
      intro hmem
      obtain ⟨c, hc, hs⟩ := List.mem_map.mp hmem
      exact hkey (((Binding.sequence_eq_iff c x).mp hs).1.symm.trans (mem_conflicts hc).2)
    simp [hkey, hno]

/-- What registering can do: refuse a binding that clashes, or put it behind the bindings with other
keys. -/
theorem register_cases (t : Keymap) (b : Binding) (replace : Bool) :
    (t.conflicts b ≠ [] ∧ replace = false ∧ t.register b replace = .error ⟨b, t.conflicts b⟩) ∨
    ((t.conflicts b = [] ∨ replace = true) ∧
      t.register b replace = .ok (t.change b.group (t.others b ++ [b]))) := by
  simp only [register, filter_conflicts]
  by_cases h : t.conflicts b = [] <;> cases replace <;> simp [h]

theorem register_eq_ok {t t' : Keymap} {b : Binding} {replace : Bool}
    (h : t.register b replace = .ok t') : t' = t.change b.group (t.others b ++ [b]) := by
  rcases register_cases t b replace with ⟨-, -, he⟩ | ⟨-, he⟩
  · simp [he] at h
  · exact (Except.ok.inj (he.symm.trans h)).symm

theorem register_eq_error_iff {t : Keymap} {b : Binding} {replace : Bool} {e : Conflict} :
    t.register b replace = .error e ↔
      replace = false ∧ t.conflicts b ≠ [] ∧ e = ⟨b, t.conflicts b⟩ := by
  rcases register_cases t b replace with ⟨hc, hr, he⟩ | ⟨hc, he⟩
  · rw [he, Except.error.injEq]
    exact ⟨fun h => ⟨hr, hc, h.symm⟩, fun h => h.2.2.symm⟩
  · rw [he]
    constructor
    · exact fun h => nomatch h
    · rintro ⟨rfl, hne, -⟩
      simp [hne] at hc

/-- Each binding stands in its own group, and no two bindings of a group have the same key. -/
structure Lawful (t : Keymap) : Prop where
  group_eq : ∀ g, ∀ b ∈ t.bucket g, b.group = g
  nodup : ∀ g, ((t.bucket g).map Binding.key).Nodup

namespace Lawful
variable {t t' : Keymap}

theorem empty (logger : Option String) : Lawful { logger := logger } := by
  constructor <;> intro g <;> cases g <;> simp [bucket]

theorem key_inj (h : t.Lawful) {g : Group} {a b : Binding} (ha : a ∈ t.bucket g)
    (hb : b ∈ t.bucket g) (hkey : a.key = b.key) : a = b :=
  List.inj_on_of_nodup_map (h.nodup g) ha hb hkey

theorem find?_eq_some_iff (h : t.Lawful) {g : Group} {keys : List String} {b : Binding} :
    t.find? g keys = some b ↔ b ∈ t.bucket g ∧ b.sequence = keys := by
  refine ⟨find?_eq_some, ?_⟩
  rintro ⟨hb, rfl⟩
  cases hf : t.find? g b.sequence with
  | none => exact absurd rfl (find?_eq_none.mp hf b hb)
  | some c =>
    obtain ⟨hc, hs⟩ := find?_eq_some hf
    rw [h.key_inj hc hb ((Binding.sequence_eq_iff c b).mp hs).1]

theorem not_isLeader_of_single (h : t.Lawful) {g : Group} {b : Binding} (hb : b ∈ t.bucket g)
    (hsingle : b.doubled = false) : t.isLeader g b.key = false := by
  rw [Bool.eq_false_iff]
  intro hl
  obtain ⟨c, hc, hd, hkey⟩ := (isLeader_iff t g b.key).mp hl
  rw [h.key_inj hc hb hkey, hsingle] at hd
  exact Bool.noConfusion hd

/-- Both kinds of conflict at once would be two bindings with one key. -/
theorem conflicts_length (h : t.Lawful) (b : Binding) : (t.conflicts b).length ≤ 1 := by
  rw [conflicts_eq]
  cases hs : t.find? b.group b.sequence with
  | none => cases t.find? b.group b.otherSequence <;> simp
  | some c =>
    cases ho : t.find? b.group b.otherSequence with
    | none => simp
    | some d =>
      obtain ⟨hc, hcs⟩ := find?_eq_some hs
      obtain ⟨hd, hds⟩ := find?_eq_some ho
      obtain ⟨hck, hcd⟩ := (Binding.sequence_eq_iff c b).mp hcs
      obtain ⟨hdk, hdd⟩ := (Binding.sequence_eq_other_iff d b).mp hds
      rw [h.key_inj hc hd (hck.trans hdk.symm)] at hcd
      exact absurd hcd hdd

/-- New bindings of one group keep the law if the group's own do. -/
theorem change (h : t.Lawful) {g : Group} {bs : List Binding} (hg : ∀ b ∈ bs, b.group = g)
    (hn : (bs.map Binding.key).Nodup) : (t.change g bs).Lawful := by
  constructor
  · intro g' b hb
    rw [bucket_change] at hb
    split at hb
    · rename_i he
      rw [he]
      exact hg b hb
    · exact h.group_eq g' b hb
  · intro g'
    rw [bucket_change]
    split
    · exact hn
    · exact h.nodup g'

theorem register (h : t.Lawful) {b : Binding} {replace : Bool}
    (hr : t.register b replace = .ok t') : t'.Lawful := by
  rw [register_eq_ok hr]
  have hsub : (t.others b).Sublist (t.bucket b.group) := List.filter_sublist
  apply h.change
  · intro x hx
    rcases List.mem_append.mp hx with hx | hx
    · exact h.group_eq b.group x (hsub.subset hx)
    · rw [List.mem_singleton.mp hx]
  · -- The bindings that stay have other keys than the new one.
    rw [List.map_append, List.nodup_append]
    refine ⟨(hsub.map Binding.key).nodup (h.nodup b.group), by simp, ?_⟩
    intro k hk k' hk'
    obtain ⟨x, hx, rfl⟩ := List.mem_map.mp hk
    obtain rfl : k' = b.key := by simpa using hk'
    simpa using (List.mem_filter.mp hx).2

theorem registerMany (h : t.Lawful) (replace : Bool) (bs : List Binding) :
    (t.registerMany replace bs).1.Lawful := by
  induction bs generalizing t with
  | nil => exact h
  | cons b bs ih =>
    unfold Keymap.registerMany
    split
    · rename_i t' hr
      exact ih (h.register hr)
    · exact h

theorem unregister (h : t.Lawful) (group : String) (keys : List String) :
    (t.unregister group keys).1.Lawful := by
  unfold Keymap.unregister
  split
  · exact h
  · rename_i g _
    split
    · exact h
    · have hsub : ((t.bucket g).filter (·.sequence ≠ keys)).Sublist (t.bucket g) :=
        List.filter_sublist
      exact h.change (fun b hb => h.group_eq g b (hsub.subset hb))
        ((hsub.map Binding.key).nodup (h.nodup g))

theorem loadDefaults (h : t.Lawful) (replace : Bool) (extra : List Binding) :
    (t.loadDefaults replace extra).1.Lawful := by
  have hd := h.registerMany replace defaults
  unfold Keymap.loadDefaults
  split
  · rename_i heq
    rwa [heq] at hd
  · rename_i heq
    rw [heq] at hd
    exact hd.registerMany true extra

end Lawful
end Keymap
end ModalEditing
