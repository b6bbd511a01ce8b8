import Mathlib.Data.List.Pairwise
import ModalEditing.Proofs.Keymap.Lawful

namespace ModalEditing

namespace Binding

/-- Two bindings of one group have the same key, so that they cannot both be in force. -/
def Clashes (a b : Binding) : Prop := a.group = b.group ∧ a.key = b.key

def Apart (a b : Binding) : Prop := ¬ a.Clashes b

instance : DecidableRel Apart := fun a b => inferInstanceAs (Decidable (¬ (a.group = b.group ∧ a.key = b.key)))

theorem apart_or_apart {a b c : Binding} (h : a.Apart c) : a.Apart b ∨ b.Apart c := by
  by_contra hboth
  obtain ⟨hab, hbc⟩ := not_or.mp hboth
  obtain ⟨hgroup, hkey⟩ := not_not.mp hab
  obtain ⟨hgroup', hkey'⟩ := not_not.mp hbc
  exact h ⟨hgroup.trans hgroup', hkey.trans hkey'⟩

theorem apart_of_group {a b : Binding} (h : a.group ≠ b.group) : a.Apart b := fun hc => h hc.1

theorem apart_iff_key {a b : Binding} (h : a.group = b.group) : a.Apart b ↔ a.key ≠ b.key := by
  simp [Apart, Clashes, h]

end Binding

namespace Keymap
variable {t : Keymap} {g : Group} {b : Binding} {bs : List Binding}

/-- The bindings of a list that clash with no later one of it. -/
def lasting (bs : List Binding) : List Binding := bs.pwFilter Binding.Apart

/-- The bindings of a list that clash with none that comes after the list. -/
def spared (bs later : List Binding) : List Binding := bs.filter fun b => ∀ e ∈ later, b.Apart e

theorem lasting_cons (b : Binding) (bs : List Binding) : lasting (b :: bs) = spared [b] bs ++ lasting bs := by
  have hiff := List.forall_mem_pwFilter (R := Binding.Apart) Binding.apart_or_apart b bs
  by_cases hb : ∀ e ∈ bs, b.Apart e
  · rw [lasting, List.pwFilter_cons_of_pos (hiff.mpr hb), spared, List.filter_cons_of_pos (by simpa using hb)]
    rfl
  · rw [lasting, List.pwFilter_cons_of_neg fun h => hb (hiff.mp h), spared,
      List.filter_cons_of_neg (by simpa using hb)]
    rfl

theorem mem_spared {later : List Binding} : b ∈ spared bs later ↔ b ∈ bs ∧ ∀ e ∈ later, b.Apart e := by
  rw [spared, List.mem_filter, decide_eq_true_iff]

theorem mem_lasting :
    b ∈ lasting bs ↔ ∃ earlier later, bs = earlier ++ b :: later ∧ ∀ e ∈ later, b.Apart e := by
  induction bs with
  | nil => simp [lasting]
  | cons x bs ih =>
    rw [lasting_cons, List.mem_append, mem_spared, List.mem_singleton, ih]
    constructor
    · rintro (⟨rfl, h⟩ | ⟨earlier, later, rfl, h⟩)
      · exact ⟨[], bs, rfl, h⟩
      · exact ⟨x :: earlier, later, rfl, h⟩
    · rintro ⟨earlier, later, hbs, h⟩
      cases earlier with
      | nil =>
        obtain ⟨rfl, rfl⟩ := List.cons.inj hbs
        exact .inl ⟨rfl, h⟩
      | cons y earlier =>
        obtain ⟨-, rfl⟩ := List.cons.inj hbs
        exact .inr ⟨earlier, later, rfl, h⟩

/-- Registering a binding over others spares those of its group that do not clash with it. -/
theorem others_eq_spared (h : t.Lawful) (b : Binding) : t.others b = spared (t.bucket b.group) [b] := by
  refine List.filter_congr fun x hx => ?_
  have hkey := Binding.apart_iff_key (h.group_eq b.group x hx)
  simp [hkey]

theorem spared_append (as bs later : List Binding) :
    spared (as ++ bs) later = spared as later ++ spared bs later := List.filter_append ..

theorem spared_spared (as bs later : List Binding) :
    spared (spared as bs) later = spared as (bs ++ later) := by
  simp only [spared, List.filter_filter]
  refine List.filter_congr fun x _ => ?_
  simp [or_imp, forall_and, Bool.and_comm]

/-- Bindings of other groups are all spared. -/
theorem spared_of_group (h : ∀ x ∈ bs, x.group ≠ b.group) (later : List Binding) :
    spared bs (b :: later) = spared bs later := by
  refine List.filter_congr fun x hx => ?_
  simp [Binding.apart_of_group (h x hx)]

/-- A registration over others puts the binding behind those that it spares. -/
theorem bucket_register (h : t.Lawful) (g : Group) (b : Binding) :
    (t.change b.group (t.others b ++ [b])).bucket g
      = spared (t.bucket g) [b] ++ [b].filter (·.group = g) := by
  rw [bucket_change]
  split_ifs with hg
  · subst hg
    rw [others_eq_spared h]
    simp
  · have hall : ∀ x ∈ t.bucket g, x.group ≠ b.group := fun x hx hxb =>
      hg ((h.group_eq g x hx).symm.trans hxb)
    rw [spared_of_group hall]
    simp [spared, Ne.symm hg]

/-- Registering bindings over others never fails. It leaves the bindings from before that clash with none
of them, and behind these the new ones that clash with no later one. -/
theorem registerMany_over (h : t.Lawful) (bs : List Binding) : ∃ t', t.registerMany true bs = (t', none) ∧
    ∀ g, t'.bucket g = spared (t.bucket g) bs ++ (lasting bs).filter (·.group = g) := by
  induction bs generalizing t with
  | nil =>
    refine ⟨t, rfl, fun g => ?_⟩
    simp [spared, lasting]
  | cons b bs ih =>
    obtain ⟨t₁, hr⟩ : ∃ t₁, t.register b true = .ok t₁ := by
      rcases register_cases t b true with ⟨-, htrue, -⟩ | ⟨-, hok⟩
      · exact absurd htrue (by decide)
      · exact ⟨_, hok⟩
    obtain ⟨t', hrest, hbucket⟩ := ih (h.register hr)
    refine ⟨t', by rw [registerMany, hr]; exact hrest, fun g => ?_⟩
    rw [hbucket, register_eq_ok hr, bucket_register h, lasting_cons, spared_append, spared_spared,
      List.filter_append, List.append_assoc]
    -- The new binding itself stays if it clashes with none registered after it.
    have hnew : spared ([b].filter (·.group = g)) bs = (spared [b] bs).filter (·.group = g) :=
      List.filter_comm _ _ _
    rw [hnew]
    rfl

/-- Bindings that clash neither with those in force nor with each other are registered in the same way
whether or not they are to replace others. -/
theorem registerMany_apart (hbs : bs.Pairwise Binding.Apart)
    (ht : ∀ b ∈ bs, ∀ x ∈ t.bucket b.group, x.key ≠ b.key) (replace : Bool) :
    t.registerMany replace bs = t.registerMany true bs := by
  induction bs generalizing t with
  | nil => rfl
  | cons b bs ih =>
    obtain ⟨hb, hrest⟩ := List.pairwise_cons.mp hbs
    have hfree : t.conflicts b = [] := (conflicts_eq_nil_iff t b).mpr (ht b List.mem_cons_self)
    have hregister (replace : Bool) :
        t.register b replace = .ok (t.change b.group (t.others b ++ [b])) := by
      rcases register_cases t b replace with ⟨hne, -⟩ | ⟨-, hok⟩
      · exact absurd hfree hne
      · exact hok
    rw [registerMany, registerMany, hregister, hregister]
    refine ih hrest fun e he x hx => ?_
    rw [bucket_change] at hx
    split_ifs at hx with hg
    · rcases List.mem_append.mp hx with hx | hx
      · rw [others, List.mem_filter, ← hg] at hx
        exact ht e (List.mem_cons_of_mem _ he) x hx.1
      · obtain rfl := List.mem_singleton.mp hx
        exact (Binding.apart_iff_key hg.symm).mp (hb e he)
    · exact ht e (List.mem_cons_of_mem _ he) x hx

theorem defaults_apart : defaults.Pairwise Binding.Apart := by decide +kernel

/-- The built-in bindings are all in force in a keymap that was empty before, group by group. -/
theorem registerMany_defaults (logger : Option String) (replace : Bool) :
    ∃ t : Keymap, registerMany { logger := logger } replace defaults = (t, none) ∧
      t.Lawful ∧ ∀ g, t.bucket g = defaults.filter (·.group = g) := by
  have hempty (g : Group) : bucket { logger := logger } g = [] := by cases g <;> rfl
  have hlaw := Lawful.empty logger
  have hsame := registerMany_apart (t := { logger := logger }) defaults_apart
    (fun b _ x hx => by simp [hempty] at hx) replace
  obtain ⟨t, ht, hbucket⟩ := registerMany_over hlaw defaults
  refine ⟨t, hsame.trans ht, ?_, fun g => ?_⟩
  · have hlawful := hlaw.registerMany true defaults
    rwa [ht] at hlawful
  · rw [hbucket, hempty, lasting, List.pwFilter_eq_self.mpr defaults_apart]
    rfl

/-- Extra bindings are laid over the built-in ones without a clash. In force are then the built-in
bindings that clash with none of the extra ones, and of those the ones that clash with no later one; in
each group the built-in ones come first and both are in their order, and no key belongs to two of them. -/
theorem extras_overlay_defaults (logger : Option String) (replace : Bool) (extra : List Binding) :
    let loaded := loadDefaults { logger := logger } replace extra
    loaded.2 = none ∧
    (∀ b, b ∈ loaded.1.bindings ↔ (b ∈ defaults ∧ ∀ e ∈ extra, ¬ b.Clashes e) ∨
      ∃ earlier later, extra = earlier ++ b :: later ∧ ∀ e ∈ later, ¬ b.Clashes e) ∧
    (∀ g, loaded.1.bucket g = (spared defaults extra ++ lasting extra).filter (·.group = g)) ∧
    loaded.1.bindings.Pairwise fun a b => ¬ a.Clashes b := by
  obtain ⟨t, ht, hlaw, hbucket⟩ := registerMany_defaults logger replace
  obtain ⟨t', hover, hbucket'⟩ := registerMany_over hlaw extra
  have hloaded : loadDefaults { logger := logger } replace extra = (t', none) := by
    rw [loadDefaults, ht]
    exact hover
  have hgroups (g : Group) : t'.bucket g = (spared defaults extra ++ lasting extra).filter (·.group = g) := by
    rw [hbucket', hbucket, List.filter_append, spared, spared, List.filter_comm]
  intro loaded
  simp only [loaded, hloaded]
  refine ⟨trivial, fun b => ?_, hgroups, ?_⟩
  · have hmem : b ∈ t'.bindings ↔ b ∈ spared defaults extra ++ lasting extra := by
      rw [mem_bindings]
      simp only [hgroups, List.mem_filter, decide_eq_true_iff]
      exact ⟨fun h => h.choose_spec.1, fun h => ⟨b.group, h, rfl⟩⟩
    rw [hmem, List.mem_append, mem_lasting, mem_spared]
    rfl
  · have hlawful : t'.Lawful := by
      have h := hlaw.registerMany true extra
      rwa [hover] at h
    refine List.pairwise_append.mpr ⟨?_, ?_, fun a ha b hb hclash => ?_⟩
    · exact (List.pairwise_map.mp (hlawful.nodup .normal)).imp fun hkey hclash => hkey hclash.2
    · exact (List.pairwise_map.mp (hlawful.nodup .visual)).imp fun hkey hclash => hkey hclash.2
    · have hgroup := hclash.1
      rw [hlawful.group_eq .normal a ha, hlawful.group_eq .visual b hb] at hgroup
      cases hgroup

/-- A single key takes the place of a built-in doubled one, and a later doubled one that of the single. -/
example :
    let single : Binding :=
      { key := "g", doubled := false, group := .normal, kind := .motion, action := "line-home",
        key_ne := by decide, action_ne := by decide }
    let doubled : Binding := { single with doubled := true }
    let loaded := (loadDefaults { logger := none } false [single, doubled]).1
    loaded.find? .normal ["g"] = none ∧ loaded.find? .normal ["g", "g"] = some doubled := by
  decide +kernel

end Keymap
end ModalEditing
