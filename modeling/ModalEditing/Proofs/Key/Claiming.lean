import ModalEditing.Editor
import ModalEditing.Proofs.Interpreter.Session
import ModalEditing.Proofs.Key.Decoding

namespace ModalEditing

namespace Press
variable {name : Text} {key : String} {p : Press}

theorem split_snd_eq_iff (hplus : '+' ∉ name) (hne : name ≠ []) : (split key).2 = String.ofList name ↔
    ∃ ws, (∀ w ∈ ws, '+' ∉ w) ∧ key = String.ofList (Key.written ws name) := by
  constructor
  · intro h
    -- The plus sign alone is its own name and is not parted.
    by_cases hkey : key = "+"
    · subst hkey
      have hname : name = ['+'] := (String.ofList_injective h).symm
      exact absurd (hname ▸ List.mem_singleton_self '+') hplus
    · obtain ⟨ws, rest, rfl, hws, hrest⟩ := Key.exists_ofList_written key
      rw [split_written hws hrest hkey] at h
      exact ⟨ws, hws, String.ofList_injective h ▸ rfl⟩
  · rintro ⟨ws, hws, rfl⟩
    have hkey : String.ofList (Key.written ws name) ≠ "+" := by
      intro h
      have hpieces : (Key.written ws name).splitOn '+' = ['+'].splitOn '+' :=
        congrArg (List.splitOn '+') (String.ofList_injective h)
      rw [Key.splitOn_written hws hplus] at hpieces
      have hlast := congrArg List.getLast? hpieces
      rw [List.getLast?_concat] at hlast
      exact hne (Option.some.inj hlast)
    rw [split_written hws hplus hkey]

theorem exists_written_iff :
    (∃ ws, (∀ w ∈ ws, '+' ∉ w) ∧ key = String.ofList (Key.written ws name)) ↔
      key = String.ofList name ∨ ∃ held, key = held ++ String.ofList ('+' :: name) := by
  constructor
  · rintro ⟨ws, -, rfl⟩
    rcases List.eq_nil_or_concat' ws with rfl | ⟨ws, w, rfl⟩
    · exact .inl rfl
    · rw [Key.written_concat, String.ofList_append]
      exact .inr ⟨_, rfl⟩
  · rintro (rfl | ⟨held, rfl⟩)
    · exact ⟨[], List.forall_mem_nil _, rfl⟩
    · obtain ⟨ws, w, rfl, hws, hw⟩ := Key.exists_ofList_written held
      refine ⟨ws ++ [w], List.forall_mem_append.mpr ⟨hws, List.forall_mem_singleton.mpr hw⟩, ?_⟩
      rw [Key.written_concat, String.ofList_append]

/-- The name in a toolkit name is what stands behind its last plus sign. -/
theorem split_snd_iff (hplus : '+' ∉ name) (hne : name ≠ []) : (split key).2 = String.ofList name ↔
    key = String.ofList name ∨ ∃ held, key = held ++ String.ofList ('+' :: name) :=
  (split_snd_eq_iff hplus hne).trans exists_written_iff

theorem canonical_eq_escape_iff : canonical key = escapeName ↔
    key = "escape" ∨ key = "esc" ∨ key = "ctrl+left_square_bracket" := by
  rw [canonical_eq]
  split_ifs <;> grind [escapeName]

/-- A name for the escape key behind a plus sign. -/
def HeldEscape (key : String) : Prop := ∃ held, key = held ++ "+escape" ∨ key = held ++ "+esc"

theorem plus_of_heldEscape (h : HeldEscape key) : '+' ∈ key.toList := by
  obtain ⟨held, rfl | rfl⟩ := h <;> simp

/-- The key is named as the escape key behind its last plus sign, which it has. -/
theorem heldEscape_iff : HeldEscape key ↔
    ((split key).2 = "escape" ∨ (split key).2 = "esc") ∧ key ≠ "escape" ∧ key ≠ "esc" := by
  have hescape : (split key).2 = "escape" ↔ key = "escape" ∨ ∃ held, key = held ++ "+escape" :=
    @split_snd_iff "escape".toList key (by decide) (by decide)
  have hesc : (split key).2 = "esc" ↔ key = "esc" ∨ ∃ held, key = held ++ "+esc" :=
    @split_snd_iff "esc".toList key (by decide) (by decide)
  have hplus : HeldEscape key → '+' ∈ key.toList := plus_of_heldEscape
  rw [hescape, hesc]
  constructor
  · intro h
    refine ⟨(exists_or.mp h).imp .inr .inr, ?_, ?_⟩ <;> rintro rfl <;> exact absurd (hplus h) (by decide)
  · rintro ⟨hends, hne, hne'⟩
    exact exists_or.mpr (hends.imp (·.resolve_left hne) (·.resolve_left hne'))

instance : DecidablePred HeldEscape := fun _ => decidable_of_iff _ heldEscape_iff.symm

theorem not_plus_of_split (h : key ≠ "+") : '+' ∉ (split key).2.toList := by
  obtain ⟨ws, rest, rfl, hws, hrest⟩ := Key.exists_ofList_written key
  rwa [split_written hws hrest h, String.toList_ofList]

theorem canonical_split_iff : canonical (split key).2 = escapeName ↔
    key = "escape" ∨ key = "esc" ∨ HeldEscape key := by
  have hno : (split key).2 ≠ "ctrl+left_square_bracket" := by
    intro h
    have hplus : key ≠ "+" := by
      rintro rfl
      exact absurd h (by decide)
    exact not_plus_of_split hplus (h ▸ by decide)
  have hescape : (split "escape").2 = "escape" := by decide
  have hesc : (split "esc").2 = "esc" := by decide
  rw [canonical_eq_escape_iff, heldEscape_iff]
  constructor
  · rintro (h | h | h)
    · grind
    · grind
    · exact absurd h hno
  · rintro (rfl | rfl | ⟨hends, -⟩)
    · exact .inl hescape
    · exact .inr (.inl hesc)
    · exact hends.imp_right .inl

theorem toKey_escape_iff (h : p.printable? = none) : p.toKey.name = escapeName ↔
    canonical p.key = escapeName ∨ HeldEscape p.key := by
  rw [toKey_of_silent h]
  by_cases hc : canonical p.key = escapeName
  · rw [hc]
    exact iff_of_true (by decide) (.inl rfl)
  · rw [or_iff_right hc]
    -- Of the names that have another, `enter` alone does not stand for the escape key.
    by_cases henter : p.key = "enter"
    · rw [henter]
      exact iff_of_false (by decide) (by decide)
    · obtain ⟨hescape, hesc, hbracket⟩ : p.key ≠ "escape" ∧ p.key ≠ "esc" ∧
          p.key ≠ "ctrl+left_square_bracket" := by simpa [canonical_eq_escape_iff] using hc
      rw [canonical_of_ne henter hesc hbracket, canonical_split_iff, or_iff_right hescape,
        or_iff_right hesc]

end Press

namespace State
variable {s : State}

/-- While text is inserted the interpreter acts on the escape key alone. -/
theorem readKey_of_insert (h : s.mode = .insert) (t : Keymap) (k : Key) : s.readKey t k =
    if k.name = escapeName then (s.switch .normal, .ok (.modeChange Mode.normal.name))
    else (s, .ok .nothing) := by
  rw [readKey, h]
  rfl

theorem handle_of_insert (hen : s.enabled = true) (hm : s.mode = .insert) (t : Keymap) (k : Key) :
    ∃ a, (s.handle t k).2 = .ok a ∧ (a.isNone = false ↔ k.name = escapeName) := by
  rw [(handle_of_enabled hen t k).2, readKey_of_insert hm]
  split_ifs with hname
  · exact ⟨_, rfl, iff_of_true rfl hname⟩
  · exact ⟨_, rfl, iff_of_false (by decide) hname⟩

theorem wants_of_insert (hen : s.enabled = true) (hm : s.mode = .insert) (key : String) :
    Editor.wants s key = true ↔ Press.canonical key = escapeName := by
  simp [Editor.wants, hen, hm]

end State

/-- While text is inserted an editor claims the names of the escape key, and the interpreter acts on these
and on the escape key with modifiers, which the editor leaves to the text area. -/
theorem Editor.claims_iff {s : State} (hen : s.enabled = true) (hm : s.mode = .insert) {p : Press}
    (hsilent : p.printable? = none) (t : Keymap) : ∃ a, (s.handle t p.toKey).2 = .ok a ∧
      (wants s p.key = true ↔
        p.key = "escape" ∨ p.key = "esc" ∨ p.key = "ctrl+left_square_bracket") ∧
      (a.isNone = false ↔ wants s p.key = true ∨ Press.HeldEscape p.key) ∧
      ((wants s p.key = true ↔ a.isNone = false) ↔ ¬ Press.HeldEscape p.key) := by
  obtain ⟨a, ha, hacts⟩ := State.handle_of_insert hen hm t p.toKey
  have hwants := State.wants_of_insert hen hm p.key
  rw [Press.toKey_escape_iff hsilent, ← hwants] at hacts
  rw [Press.canonical_eq_escape_iff] at hwants
  refine ⟨a, ha, hwants, hacts, ?_⟩
  have hapart : Press.HeldEscape p.key → ¬ wants s p.key = true := by
    intro hheld
    rw [hwants]
    rintro (h | h | h) <;> exact absurd (h ▸ hheld) (by decide)
  rw [hacts]
  exact ⟨fun h hheld => hapart hheld (h.mpr (.inr hheld)), fun h => (or_iff_left h).symm⟩

/-- A new interpreter that has been told to insert claims the escape key and acts on it. -/
theorem Editor.claims_escape :
    let s := (Session.fresh true .builtIn).run [.key { name := "i" }]
    let p : Press := { key := "escape" }
    s.state.enabled = true ∧ s.state.mode = .insert ∧ p.printable? = none ∧
    wants s.state p.key = true ∧
    ∃ a, (s.state.handle s.keymap p.toKey).2 = .ok a ∧ a.isNone = false := by
  intro s p
  obtain ⟨hen, hm⟩ : s.state.enabled = true ∧ s.state.mode = .insert := by decide +kernel
  obtain ⟨a, ha, hwants, hacts, -⟩ := claims_iff (p := p) hen hm rfl s.keymap
  exact ⟨hen, hm, rfl, hwants.mpr (.inl rfl), a, ha, hacts.mpr (.inl (hwants.mpr (.inl rfl)))⟩

/-- Escape with shift is left to the text area, though the interpreter would leave the mode on it. -/
theorem Editor.held_escape_unclaimed :
    let s := (Session.fresh true .builtIn).run [.key { name := "i" }]
    let p : Press := { key := "shift+escape" }
    s.state.enabled = true ∧ s.state.mode = .insert ∧ p.printable? = none ∧
    wants s.state p.key = false ∧
    (s.state.handle s.keymap p.toKey).2 = .ok (.modeChange "normal") := by
  decide +kernel

end ModalEditing
