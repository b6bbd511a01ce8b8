import Mathlib.Tactic.SplitIfs
import ModalEditing.Key.Press
import ModalEditing.Proofs.Key.Tokens

namespace ModalEditing

namespace Press
variable {ws : List Text} {rest : Text} {p : Press} {k : Key}

theorem canonical_eq (name : String) : canonical name =
    if name = "enter" then "return"
    else if name = "esc" ∨ name = "ctrl+left_square_bracket" then "escape" else name := by
  rw [canonical, aliases]
  simp only [List.lookup_cons, List.lookup_nil]
  split_ifs <;> grind

theorem canonical_of_ne {name : String} (henter : name ≠ "enter") (hesc : name ≠ "esc")
    (hbracket : name ≠ "ctrl+left_square_bracket") : canonical name = name := by
  rw [canonical_eq, if_neg henter, if_neg (not_or.mpr ⟨hesc, hbracket⟩)]

/-- Without a character that shows, a press is decoded from its name alone. -/
theorem toKey_of_silent (h : p.printable? = none) : p.toKey =
    { name := canonical (split (canonical p.key)).2
      ctrl := (split (canonical p.key)).1.contains "ctrl"
      alt := (split (canonical p.key)).1.contains "alt" || (split (canonical p.key)).1.contains "meta"
      shift := (split (canonical p.key)).1.contains "shift" } := by
  rw [toKey]
  simp only [h]

theorem split_written (hws : ∀ w ∈ ws, '+' ∉ w) (hrest : '+' ∉ rest)
    (hne : String.ofList (Key.written ws rest) ≠ "+") :
    split (String.ofList (Key.written ws rest))
      = (ws.map fun w => Text.lower (String.ofList w), String.ofList rest) := by
  rw [split, if_neg hne, String.toList_ofList, Text.pieces_eq_splitOn, Key.splitOn_written hws hrest]
  simp

theorem lower_modifiers (k : Key) :
    ((k.modifiers.map String.toList).map fun w => Text.lower (String.ofList w)) = k.modifiers := by
  have hall : ∀ m ∈ Key.modifierNames, Text.lower (String.ofList m.toList) = m := by decide
  rw [List.map_map]
  exact (List.map_congr_left fun m hm => hall m (k.modifiers_sublist.subset hm)).trans (List.map_id _)

/-- Pieces that are empty hold no modifier. -/
theorem toKey_of_modifiers {blank : List String} {name : String} (h : p.printable? = none)
    (hsplit : split (canonical p.key) = (k.modifiers ++ blank, name)) (hblank : ∀ b ∈ blank, b = "") :
    p.toKey = { k.shown with name := canonical name } := by
  have hnone : ∀ m : String, m ≠ "" → blank.contains m = false := by
    intro m hm
    rw [List.contains_eq_mem, decide_eq_false_iff_not]
    exact fun hmem => hm (hblank m hmem)
  have hmeta : k.modifiers.contains "meta" = false := by
    rw [List.contains_eq_mem, decide_eq_false_iff_not]
    exact fun hmem => absurd (k.modifiers_sublist.subset hmem) (by decide)
  obtain ⟨hctrl, halt, hshift⟩ := k.contains_modifiers
  rw [toKey_of_silent h, hsplit]
  simp only [List.contains_append, hnone "ctrl" (by decide), hnone "alt" (by decide),
    hnone "meta" (by decide), hnone "shift" (by decide), hmeta, hctrl, halt, hshift, Bool.or_false]
  rfl

theorem name_of_token {token : String} (hname : Key.Nameable k.name) (h : k.token = token) :
    k.name.toList = (Key.split token.toList).2 := by
  rw [← h]
  exact (Key.split_token hname).2.symm

/-- The token of a key with a plain name has its modifiers and its name as pieces. -/
theorem split_token (hname : Key.Nameable k.name) (hplus : k.name ≠ "+") :
    split k.token = (k.modifiers, k.name) := by
  have hne : k.token ≠ "+" := fun h => hplus (String.toList_inj.mp (name_of_token hname h))
  have hrest := (hname.resolve_left hplus).2
  rw [Key.token_eq] at hne ⊢
  rw [split_written k.not_plus_of_modifiers hrest hne, lower_modifiers, String.ofList_toList]

/-- The plus sign has no modifier in its token but for control and alt. -/
theorem modifiers_eq_nil_iff (h : k.name = "+") : k.modifiers = [] ↔ ¬ (k.ctrl = true ∨ k.alt = true) := by
  have hlength : k.name.length = 1 := by rw [h]; rfl
  simp [Key.modifiers, hlength]

theorem token_eq_plus_iff (h : k.name = "+") : k.token = "+" ↔ k.modifiers = [] := by
  rw [← String.toList_inj, Key.token, String.toList_ofList, h]
  refine List.append_left_eq_self.trans ?_
  cases k.modifiers <;> simp

/-- With modifiers, the pieces of a plus sign's token are the modifiers and two empty ones. -/
theorem split_token_plus (hplus : k.name = "+") (hmods : k.modifiers ≠ []) :
    split k.token = (k.modifiers ++ [""], "") := by
  have hne : k.token ≠ "+" := fun h => hmods ((token_eq_plus_iff hplus).mp h)
  rw [Key.token_plus hplus] at hne ⊢
  rw [split_written k.not_plus_of_parted List.not_mem_nil hne, List.map_append, lower_modifiers]
  rfl

/-- The toolkit's decoder takes the empty piece behind the last plus sign as the name. -/
theorem toKey_of_token (hkeep : canonical p.key = k.token) (hsilent : p.printable? = none)
    (hname : Key.Nameable k.name) (hcanonical : canonical k.name = k.name) : p.toKey =
      if k.name = "+" ∧ (k.ctrl = true ∨ k.alt = true) then { k.shown with name := "" } else k.shown := by
  by_cases hplus : k.name = "+"
  · by_cases hmods : k.modifiers = []
    · have hsplit : split (canonical p.key) = (k.modifiers ++ [], "+") := by
        rw [hkeep, (token_eq_plus_iff hplus).mpr hmods, hmods]
        rfl
      rw [toKey_of_modifiers hsilent hsplit (List.forall_mem_nil _), ← hplus, hcanonical,
        if_neg fun h => (modifiers_eq_nil_iff hplus).mp hmods h.2]
      rfl
    · have hheld : k.ctrl = true ∨ k.alt = true :=
        not_not.mp fun h => hmods ((modifiers_eq_nil_iff hplus).mpr h)
      have hsplit : split (canonical p.key) = (k.modifiers ++ [""], "") := by
        rw [hkeep, split_token_plus hplus hmods]
      rw [toKey_of_modifiers hsilent hsplit (by simp), if_pos ⟨hplus, hheld⟩]
      rfl
  · have hsplit : split (canonical p.key) = (k.modifiers ++ [], k.name) := by
      rw [hkeep, split_token hname hplus, List.append_nil]
    rw [toKey_of_modifiers hsilent hsplit (List.forall_mem_nil _), hcanonical, if_neg fun h => hplus h.1]
    rfl

/-- The two decoders read a key's token alike, but for a plus sign with control or alt held: its token has
empty pieces around the last plus sign, and the toolkit's decoder finds no name. -/
theorem decoders_agree_iff (hkey : p.key = k.token) (hsilent : p.printable? = none)
    (hname : Key.Nameable k.name) (henter : k.name ≠ "enter") (hesc : k.name ≠ "esc")
    (hbracket : k.token ≠ "ctrl+left_square_bracket") :
    Key.parse k.token = .ok k.shown ∧
    p.toKey = (if k.name = "+" ∧ (k.ctrl = true ∨ k.alt = true) then { k.shown with name := "" }
      else k.shown) ∧
    (Key.parse k.token = .ok p.toKey ↔ ¬ (k.name = "+" ∧ (k.ctrl = true ∨ k.alt = true))) := by
  have hkeep : canonical p.key = k.token := by
    rw [hkey]
    exact canonical_of_ne (fun h => henter (String.toList_inj.mp (name_of_token hname h)))
      (fun h => hesc (String.toList_inj.mp (name_of_token hname h))) hbracket
  have hother : k.name ≠ "ctrl+left_square_bracket" := by
    intro h
    rw [h] at hname
    exact hname.elim (by decide) fun hplain => hplain.2 (by decide)
  have hparse := Key.parse_token hname
  have hdecoded := toKey_of_token hkeep hsilent hname (canonical_of_ne henter hesc hother)
  refine ⟨hparse, hdecoded, ?_⟩
  rw [hparse, hdecoded, Except.ok.injEq]
  split_ifs with h
  · refine iff_of_false (fun heq => ?_) (not_not_intro h)
    have hempty := congrArg Key.name heq
    exact absurd (h.1.symm.trans hempty : "+" = "") (by decide)
  · exact iff_of_true rfl h

/-- A plus sign alone and a named key with two modifiers are read alike. -/
theorem decoders_agree_on_plain_plus :
    let plus : Key := { name := "+" }
    let up : Key := { name := "up", ctrl := true, shift := true }
    plus.token = "+" ∧ Key.parse "+" = .ok (toKey { key := "+" }) ∧
    up.token = "ctrl+shift+up" ∧ Key.parse "ctrl+shift+up" = .ok (toKey { key := "ctrl+shift+up" }) := by
  intro plus up
  have hplus : plus.token = "+" := by decide +kernel
  have hup : up.token = "ctrl+shift+up" := by decide +kernel
  have hread := decoders_agree_iff (p := { key := plus.token }) (k := plus) rfl rfl (.inl rfl)
    (by decide) (by decide) (by decide +kernel)
  have hread' := decoders_agree_iff (p := { key := up.token }) (k := up) rfl rfl
    (.inr ⟨by decide, by decide⟩) (by decide) (by decide) (by decide +kernel)
  rw [hplus] at hread
  rw [hup] at hread'
  exact ⟨hplus, hread.2.2.mpr (by decide), hup, hread'.2.2.mpr (by decide)⟩

/-- Read as a token `ctrl++` is the plus sign with control; as a toolkit's name it is a key without a
name. -/
theorem modified_plus_without_name :
    let k : Key := { name := "+", ctrl := true }
    k.token = "ctrl++" ∧ Key.parse k.token = .ok k ∧
    toKey { key := k.token } = { name := "", ctrl := true } ∧
    Key.parse k.token ≠ .ok (toKey { key := k.token }) := by
  decide +kernel

end Press
end ModalEditing
