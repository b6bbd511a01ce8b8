import Mathlib.Data.List.TakeWhile
import Mathlib.Data.Nat.Notation
import ModalEditing.Text.Casing

namespace ModalEditing.Text
variable {c d : Char} {t : Text}

/-- A small letter that no character outside the ASCII range becomes in lower case. The sign of the kelvin
becomes a `k`. -/
def IsPlain (d : Char) : Prop := d.isLower = true ∧ d ≠ 'k'

instance : DecidablePred IsPlain := fun d => inferInstanceAs (Decidable (d.isLower = true ∧ d ≠ 'k'))

theorem isLower_iff (d : Char) : d.isLower = true ↔ 97 ≤ d.toNat ∧ d.toNat ≤ 122 := by
  have hlower : d.isLower = (decide (97 ≤ d.val) && decide (d.val ≤ 122)) := rfl
  rw [hlower, Bool.and_eq_true, decide_eq_true_iff, decide_eq_true_iff, UInt32.le_iff_toNat_le,
    UInt32.le_iff_toNat_le]
  rfl

theorem toLower_of_wide (h : 0x80 ≤ c.toNat) : c.toLower = c := by
  refine dif_neg fun hupper => ?_
  have hle : c.toNat ≤ 90 := UInt32.le_iff_toNat_le.mp hupper.2
  omega

theorem lt_of_toLower (h : c.toLower.isLower = true) : c.toNat < 0x80 := by
  by_contra hwide
  have hlower := (isLower_iff c.toLower).mp h
  rw [toLower_of_wide (Nat.not_lt.mp hwide)] at hlower
  omega

theorem not_blank_of_toLower (h : c.toLower.isLower = true) : isBlank c = false := by
  have hall : ∀ n < 0x80, (Char.ofNat n).toLower.isLower = true → isBlank (Char.ofNat n) = false := by
    decide
  have hc := hall c.toNat (lt_of_toLower h)
  rw [Char.ofNat_toNat] at hc
  exact hc h

theorem run_leads_out : ∀ r ∈ lowerRuns,
    r.last < 0x80 ∨ 0x80 ≤ r.target ∨ r.target = 0x6B ∧ r.first = r.last := by
  decide +kernel

theorem toNat_ofNat_cases (n : ℕ) : (Char.ofNat n).toNat = n ∨ (Char.ofNat n).toNat = 0 := by
  by_cases h : n.isValidChar
  · have hn : Char.ofNat n = Char.ofNatAux n h := dif_pos h
    exact .inl (hn ▸ rfl)
  · have hn : Char.ofNat n = '\x00' := dif_neg h
    exact .inr (hn ▸ rfl)

/-- In lower case no character outside the ASCII range is spelt with plain letters alone. -/
theorem exists_not_plain (h : 0x80 ≤ c.toNat) : ∃ d ∈ lowerChar c, ¬ IsPlain d := by
  by_cases hi : c = 'İ'
  · subst hi
    exact ⟨'\u0307', by decide, by decide⟩
  · rw [lowerChar_of_wide h hi]
    refine ⟨_, List.mem_singleton_self _, ?_⟩
    rintro ⟨hlower, hk⟩
    rw [isLower_iff] at hlower
    cases hr : lowerRuns.findSome? (·.map? c.toNat) with
    | none =>
      rw [hr, Option.map_none, Option.getD_none] at hlower
      omega
    | some n =>
      rw [hr, Option.map_some, Option.getD_some] at hlower hk
      obtain ⟨r, hmem, hmap⟩ := List.exists_of_findSome?_eq_some hr
      have hin : r.first ≤ c.toNat ∧ c.toNat ≤ r.last ∧ r.target + (c.toNat - r.first) = n := by
        simp only [CaseRun.map?] at hmap
        grind
      rcases run_leads_out r hmem with hlast | htarget | ⟨htarget, hone⟩
      · omega
      · rcases toNat_ofNat_cases n with hn | hn <;> omega
      · obtain rfl : n = 0x6B := by omega
        exact hk rfl

/-- A text is lower-cased to a word of plain letters exactly if its own letters are those of the word. -/
theorem lowerAfter_eq_iff {m : Text} (hm : ∀ d ∈ m, IsPlain d) (t : Text) (cased : Bool) :
    lowerAfter cased t = m ↔ t.map Char.toLower = m := by
  induction t generalizing m cased with
  | nil => exact Iff.rfl
  | cons c t ih =>
    by_cases hc : c.toNat < 0x80
    · have hsigma : c ≠ 'Σ' := by
        rintro rfl
        exact absurd hc (by decide)
      rw [lowerAfter, if_neg hsigma, lowerChar, if_pos hc, List.map_cons, List.singleton_append]
      cases m with
      | nil => simp
      | cons d m =>
        rw [List.cons.injEq, List.cons.injEq, ih fun d hd => hm d (List.mem_cons_of_mem _ hd)]
    · -- Neither side holds, since the character leads to one that is no plain letter.
      rw [Nat.not_lt] at hc
      refine iff_of_false (fun h => ?_) (fun h => ?_)
      · subst h
        obtain ⟨d, hd, hnot⟩ : ∃ d ∈ lowerAfter cased (c :: t), ¬ IsPlain d := by
          rw [lowerAfter]
          split
          · refine ⟨_, List.mem_append_left _ (List.mem_singleton_self _), ?_⟩
            split <;> decide
          · obtain ⟨d, hd, hnot⟩ := exists_not_plain hc
            exact ⟨d, List.mem_append_left _ hd, hnot⟩
        exact hnot (hm d hd)
      · subst h
        have hplain := hm c.toLower (List.mem_map_of_mem List.mem_cons_self)
        have hlt := lt_of_toLower hplain.1
        omega

theorem lower_eq_iff {m : String} (hm : ∀ d ∈ m.toList, IsPlain d) (t : Text) :
    lower (String.ofList t) = m ↔ t.map Char.toLower = m.toList := by
  rw [← lowerAfter_eq_iff hm t false, lower, String.toList_ofList, ← String.toList_inj, String.toList_ofList]

theorem dropWhile_of_not_blank {after : Text} (h : ∀ c ∈ t, isBlank c = false) (hne : t ≠ []) :
    (t ++ after).dropWhile isBlank = t ++ after := by
  obtain ⟨c, t, rfl⟩ := List.exists_cons_of_ne_nil hne
  rw [List.cons_append, List.dropWhile_cons_of_neg]
  exact Bool.eq_false_iff.mp (h c List.mem_cons_self)

/-- Blanks around a text without any are what is trimmed. -/
theorem trim_surrounded {before after : Text} (hbefore : ∀ c ∈ before, isBlank c = true)
    (hafter : ∀ c ∈ after, isBlank c = true) (ht : ∀ c ∈ t, isBlank c = false) (hne : t ≠ []) :
    trim (before ++ t ++ after) = t := by
  have hleft : trimLeft (before ++ t ++ after) = t ++ after := by
    rw [trimLeft, List.append_assoc, List.dropWhile_append_of_pos hbefore, dropWhile_of_not_blank ht hne]
  have hright : t.reverse.dropWhile isBlank = t.reverse := by
    have hall : ∀ c ∈ t.reverse, isBlank c = false := fun c hc => ht c (List.mem_reverse.mp hc)
    have hdrop := @dropWhile_of_not_blank t.reverse [] hall (fun h => hne (List.reverse_eq_nil_iff.mp h))
    rwa [List.append_nil] at hdrop
  rw [trim, hleft, trimRight, List.reverse_append,
    List.dropWhile_append_of_pos fun c hc => hafter c (List.mem_reverse.mp hc), hright, List.reverse_reverse]

theorem exists_surrounded (t : Text) : ∃ before after, t = before ++ trim t ++ after ∧
    (∀ c ∈ before, isBlank c = true) ∧ ∀ c ∈ after, isBlank c = true := by
  refine ⟨t.takeWhile isBlank, ((trimLeft t).reverse.takeWhile isBlank).reverse, ?_, ?_, ?_⟩
  · have hright : trimLeft t = trim t ++ ((trimLeft t).reverse.takeWhile isBlank).reverse := by
      rw [trim, trimRight, ← List.reverse_append, List.takeWhile_append_dropWhile, List.reverse_reverse]
    rw [List.append_assoc, ← hright, trimLeft, List.takeWhile_append_dropWhile]
  · exact fun c hc => List.mem_takeWhile_imp hc
  · exact fun c hc => List.mem_takeWhile_imp (List.mem_reverse.mp hc)

theorem trim_eq_nil_iff : trim t = [] ↔ ∀ c ∈ t, isBlank c = true := by
  constructor
  · intro h
    obtain ⟨before, after, ht, hbefore, hafter⟩ := exists_surrounded t
    rw [h, List.append_nil] at ht
    intro c hc
    rw [ht] at hc
    exact (List.mem_append.mp hc).elim (hbefore c) (hafter c)
  · intro h
    rw [trim, trimLeft, List.dropWhile_eq_nil_iff.mpr h]
    rfl

end ModalEditing.Text
