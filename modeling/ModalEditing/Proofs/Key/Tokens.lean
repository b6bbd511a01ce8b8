import Mathlib.Data.List.Basic
import ModalEditing.Key.Basic
import ModalEditing.Proofs.Text.Casing

namespace ModalEditing

theorem Text.pieces_eq_splitOn (sep : Char) (t : Text) : pieces sep t = t.splitOn sep := by
  induction t with
  | nil => rfl
  | cons c t ih =>
    rw [pieces, List.splitOn_cons_eq_if_modifyHead, ← ih]
    by_cases hc : c = sep
    · rw [if_pos hc, if_pos (beq_iff_eq.mpr hc)]
    · rw [if_neg hc, if_neg (fun h => hc (beq_iff_eq.mp h))]
      cases hp : pieces sep t with
      | nil => exact absurd (ih ▸ hp) (List.splitOn_ne_nil sep t)
      | cons p ps => rfl

namespace Key
variable {ws : List Text} {w rest t : Text} {m : String} {k : Key}

/-- The text with these words, each before a plus sign, and with the rest behind them. -/
def written (ws : List Text) (rest : Text) : Text := ws.flatMap (· ++ ['+']) ++ rest

theorem written_cons (w : Text) (ws : List Text) (rest : Text) :
    written (w :: ws) rest = w ++ '+' :: written ws rest := by
  simp [written]

theorem written_concat (ws : List Text) (w rest : Text) :
    written (ws ++ [w]) rest = written ws w ++ '+' :: rest := by
  simp [written]

theorem exists_written (t : Text) :
    ∃ ws rest, t = written ws rest ∧ (∀ w ∈ ws, '+' ∉ w) ∧ '+' ∉ rest := by
  induction t with
  | nil => exact ⟨[], [], rfl, List.forall_mem_nil _, List.not_mem_nil⟩
  | cons c t ih =>
    obtain ⟨ws, rest, rfl, hws, hrest⟩ := ih
    by_cases hc : c = '+'
    · subst hc
      exact ⟨[] :: ws, rest, (written_cons [] ws rest).symm,
        List.forall_mem_cons.mpr ⟨List.not_mem_nil, hws⟩, hrest⟩
    · cases ws with
      | nil => exact ⟨[], c :: rest, rfl, hws, by simp [Ne.symm hc, hrest]⟩
      | cons w ws =>
        obtain ⟨hw, hws⟩ := List.forall_mem_cons.mp hws
        refine ⟨(c :: w) :: ws, rest, ?_, List.forall_mem_cons.mpr ⟨by simp [Ne.symm hc, hw], hws⟩, hrest⟩
        rw [written_cons, written_cons, List.cons_append]

theorem exists_ofList_written (token : String) :
    ∃ ws rest, token = String.ofList (written ws rest) ∧ (∀ w ∈ ws, '+' ∉ w) ∧ '+' ∉ rest := by
  obtain ⟨ws, rest, ht, hws, hrest⟩ := exists_written token.toList
  exact ⟨ws, rest, ht ▸ String.ofList_toList.symm, hws, hrest⟩

theorem splitOn_written (hws : ∀ w ∈ ws, '+' ∉ w) (hrest : '+' ∉ rest) :
    (written ws rest).splitOn '+' = ws ++ [rest] := by
  induction ws with
  | nil => exact List.splitOn_eq_singleton hrest
  | cons w ws ih =>
    obtain ⟨hw, hws⟩ := List.forall_mem_cons.mp hws
    rw [written_cons, List.splitOn_append_cons_self_of_not_mem hw, ih hws, List.cons_append]

theorem splitLast?_of_not_mem (h : '+' ∉ t) : splitLast? t = none := by
  induction t with
  | nil => rfl
  | cons c t ih =>
    rw [List.mem_cons, not_or] at h
    rw [splitLast?, ih h.2]
    exact if_neg (Ne.symm h.1)

theorem splitLast?_append (head : Text) (hrest : '+' ∉ rest) :
    splitLast? (head ++ '+' :: rest) = some (head, rest) := by
  induction head with
  | nil => rw [List.nil_append, splitLast?, splitLast?_of_not_mem hrest]; rfl
  | cons c head ih => rw [List.cons_append, splitLast?, ih]

/-- The modifier that a word is read as. A blank word is passed over. -/
def word? (w : Text) : Option String :=
  if (Text.trim w).isEmpty then none else some (Text.lower (String.ofList (Text.trim w)))

theorem words_eq (t : Text) : words t = (t.splitOn '+').filterMap word? := by
  rw [words, List.filterMap_map, Text.pieces_eq_splitOn]
  rfl

theorem words_written (hws : ∀ w ∈ ws, '+' ∉ w) (hw : '+' ∉ w) :
    words (written ws w) = (ws ++ [w]).filterMap word? := by
  rw [words_eq, splitOn_written hws hw]

/-- The plus sign that parts a plus sign from its modifiers only adds a blank word. -/
theorem words_parted (hws : ∀ w ∈ ws, '+' ∉ w) (hw : '+' ∉ w) :
    words (if (written ws w).getLast? = some '+' then (written ws w).dropLast else written ws w)
      = (ws ++ [w]).filterMap word? := by
  split
  · rename_i hplus
    obtain rfl : w = [] := by
      by_contra hne
      rw [written, List.getLast?_append, List.getLast?_eq_some_getLast hne, Option.some_or] at hplus
      exact hw (Option.some.inj hplus ▸ List.getLast_mem hne)
    rcases List.eq_nil_or_concat' ws with rfl | ⟨ws, w, rfl⟩
    · cases hplus
    · rw [List.forall_mem_append, List.forall_mem_singleton] at hws
      rw [written_concat, List.dropLast_concat, words_written hws.1 hws.2]
      exact (List.filterMap_append.trans (List.append_nil _)).symm
  · exact words_written hws hw

/-- Where nothing stands behind the last plus sign, that sign is the name. -/
theorem split_written (hws : ∀ w ∈ ws, '+' ∉ w) (hrest : '+' ∉ rest) :
    words (split (written ws rest)).1 = ws.filterMap word? ∧
    (split (written ws rest)).2 = if rest = [] ∧ ws ≠ [] then ['+'] else rest := by
  rcases List.eq_nil_or_concat' ws with rfl | ⟨ws, w, rfl⟩
  · have hnone : splitLast? (written [] rest) = none := splitLast?_of_not_mem hrest
    rw [split, hnone]
    exact ⟨rfl, (if_neg fun h => h.2 rfl).symm⟩
  · rw [List.forall_mem_append, List.forall_mem_singleton] at hws
    rw [written_concat, split, splitLast?_append _ hrest]
    cases rest with
    | cons c rest => exact ⟨words_written hws.1 hws.2, (if_neg fun h => List.cons_ne_nil _ _ h.1).symm⟩
    | nil => exact ⟨words_parted hws.1 hws.2, (if_pos ⟨rfl, by simp⟩).symm⟩

theorem parse_eq_ok_iff {token : String} :
    parse token = .ok k ↔ (∀ m ∈ words (split token.toList).1, m ∈ modifierNames) ∧
      k = { name := String.ofList (split token.toList).2,
            ctrl := (words (split token.toList).1).contains "ctrl",
            alt := (words (split token.toList).1).contains "alt",
            shift := (words (split token.toList).1).contains "shift" } := by
  rw [parse]
  dsimp only
  split
  · rename_i hnone
    have hall : ∀ m ∈ words (split token.toList).1, m ∈ modifierNames := by
      simpa [List.filter_eq_nil_iff] using hnone
    rw [Except.ok.injEq, eq_comm]
    exact (and_iff_right hall).symm
  · rename_i unknown hsome
    refine iff_of_false (by simp) fun h => hsome ?_
    rw [List.filter_eq_nil_iff]
    intro m hm
    simpa using h.1 m hm

/-- A word spells a name with its letters, in either case, and with blanks around them. -/
def Spells (w : Text) (name : String) : Prop :=
  ∃ before letters after, w = before ++ letters ++ after ∧ (∀ c ∈ before, Text.isBlank c = true) ∧
    (∀ c ∈ after, Text.isBlank c = true) ∧ letters.map Char.toLower = name.toList

theorem plain_of_modifier : ∀ m ∈ modifierNames, (∀ d ∈ m.toList, Text.IsPlain d) ∧ m.toList ≠ [] := by
  have hall : ∀ m ∈ modifierNames, m.toList.all (fun d => decide (Text.IsPlain d)) = true ∧
      m.toList ≠ [] := by decide
  intro m hm
  obtain ⟨hplain, hne⟩ := hall m hm
  exact ⟨fun d hd => of_decide_eq_true (List.all_eq_true.mp hplain d hd), hne⟩

theorem word?_eq_none_iff : word? w = none ↔ ∀ c ∈ w, Text.isBlank c = true := by
  rw [← Text.trim_eq_nil_iff, word?]
  by_cases h : (Text.trim w).isEmpty = true
  · rw [if_pos h]
    exact iff_of_true rfl (List.isEmpty_iff.mp h)
  · rw [if_neg h]
    exact iff_of_false (Option.some_ne_none _) fun hnil => h (List.isEmpty_iff.mpr hnil)

theorem word?_eq_some_iff (hm : m ∈ modifierNames) : word? w = some m ↔ Spells w m := by
  obtain ⟨hplain, hne⟩ := plain_of_modifier m hm
  constructor
  · intro h
    obtain ⟨before, after, hw, hbefore, hafter⟩ := Text.exists_surrounded w
    refine ⟨before, Text.trim w, after, hw, hbefore, hafter, ?_⟩
    rw [word?] at h
    split_ifs at h
    exact (Text.lower_eq_iff hplain _).mp (Option.some.inj h)
  · rintro ⟨before, letters, after, rfl, hbefore, hafter, hletters⟩
    have hnot : ∀ c ∈ letters, Text.isBlank c = false := by
      intro c hc
      have hmem : c.toLower ∈ m.toList := hletters ▸ List.mem_map_of_mem hc
      exact Text.not_blank_of_toLower (hplain _ hmem).1
    have hnonempty : letters ≠ [] := by
      rintro rfl
      exact hne hletters.symm
    rw [word?, Text.trim_surrounded hbefore hafter hnot hnonempty, if_neg (by simpa using hnonempty),
      (Text.lower_eq_iff hplain _).mpr hletters]

theorem word?_toList : ∀ m ∈ modifierNames, word? m.toList = some m := by
  decide

theorem filterMap_word? {ms : List String} (h : ∀ m ∈ ms, m ∈ modifierNames) :
    (ms.map String.toList).filterMap word? = ms := by
  induction ms with
  | nil => rfl
  | cons m ms ih =>
    obtain ⟨hm, hms⟩ := List.forall_mem_cons.mp h
    rw [List.map_cons, List.filterMap_cons_some (word?_toList m hm), ih hms]

/-- How a token with these words is read: each of them is blank or spells a modifier, and the modifiers
spelt are held. -/
structure Reads (ws : List Text) (rest : Text) (k : Key) : Prop where
  words : ∀ w ∈ ws, (∀ c ∈ w, Text.isBlank c = true) ∨ ∃ m ∈ modifierNames, Spells w m
  name : k.name.toList = if rest = [] ∧ ws ≠ [] then ['+'] else rest
  ctrl : k.ctrl = true ↔ ∃ w ∈ ws, Spells w "ctrl"
  alt : k.alt = true ↔ ∃ w ∈ ws, Spells w "alt"
  shift : k.shift = true ↔ ∃ w ∈ ws, Spells w "shift"

theorem mem_modifierNames_iff : (∀ m ∈ ws.filterMap word?, m ∈ modifierNames) ↔
    ∀ w ∈ ws, (∀ c ∈ w, Text.isBlank c = true) ∨ ∃ m ∈ modifierNames, Spells w m := by
  simp only [List.mem_filterMap, forall_exists_index, and_imp]
  constructor
  · intro h w hw
    cases hword : word? w with
    | none => exact .inl (word?_eq_none_iff.mp hword)
    | some m =>
      have hm := h m w hw hword
      exact .inr ⟨m, hm, (word?_eq_some_iff hm).mp hword⟩
  · intro h m w hw hword
    rcases h w hw with hblank | ⟨m', hm', hspells⟩
    · rw [word?_eq_none_iff.mpr hblank] at hword
      cases hword
    · rw [(word?_eq_some_iff hm').mpr hspells] at hword
      exact Option.some.inj hword ▸ hm'

theorem contains_word?_iff (hm : m ∈ modifierNames) :
    (ws.filterMap word?).contains m = true ↔ ∃ w ∈ ws, Spells w m := by
  simp only [List.contains_iff_mem, List.mem_filterMap, word?_eq_some_iff hm]

theorem parse_written (hws : ∀ w ∈ ws, '+' ∉ w) (hrest : '+' ∉ rest) :
    parse (String.ofList (written ws rest)) = .ok k ↔ Reads ws rest k := by
  obtain ⟨hwords, hname⟩ := split_written hws hrest
  rw [parse_eq_ok_iff, String.toList_ofList, hwords, hname, mem_modifierNames_iff]
  constructor
  · rintro ⟨hall, rfl⟩
    exact ⟨hall, String.toList_ofList, contains_word?_iff (by decide), contains_word?_iff (by decide),
      contains_word?_iff (by decide)⟩
  · intro h
    refine ⟨h.words, ?_⟩
    obtain ⟨name, ctrl, alt, shift⟩ := k
    have hctrl := h.ctrl.trans (contains_word?_iff (by decide)).symm
    have halt := h.alt.trans (contains_word?_iff (by decide)).symm
    have hshift := h.shift.trans (contains_word?_iff (by decide)).symm
    rw [Key.mk.injEq, ← String.toList_inj, String.toList_ofList]
    exact ⟨h.name, Bool.eq_iff_iff.mpr hctrl, Bool.eq_iff_iff.mpr halt, Bool.eq_iff_iff.mpr hshift⟩

/-- The names that tokens can hold: the plus sign, and those without one. -/
def Nameable (name : String) : Prop := name = "+" ∨ name ≠ "" ∧ '+' ∉ name.toList

/-- A key as its token shows it. The shift of a single character is implied. -/
def shown (k : Key) : Key := { k with shift := k.shift && k.name.length != 1 }

@[simp] theorem modifiers_shown (k : Key) : k.shown.modifiers = k.modifiers := by
  rw [modifiers, modifiers, shown, Bool.and_assoc, Bool.and_self]

@[simp] theorem token_shown (k : Key) : k.shown.token = k.token := by
  rw [token, token, modifiers_shown]
  rfl

theorem modifiers_sublist (k : Key) : k.modifiers.Sublist modifierNames := by
  rw [modifiers]
  cases k.ctrl <;> cases k.alt <;> cases (k.shift && k.name.length != 1) <;> decide

theorem contains_modifiers (k : Key) : k.modifiers.contains "ctrl" = k.ctrl ∧
    k.modifiers.contains "alt" = k.alt ∧ k.modifiers.contains "shift" = k.shown.shift := by
  have hshift : k.shown.shift = (k.shift && k.name.length != 1) := rfl
  rw [modifiers, hshift]
  cases k.ctrl <;> cases k.alt <;> cases (k.shift && k.name.length != 1) <;> decide

theorem not_plus_of_modifiers (k : Key) : ∀ w ∈ k.modifiers.map String.toList, '+' ∉ w := by
  have hall : ∀ m ∈ modifierNames, '+' ∉ m.toList := by decide
  exact List.forall_mem_map.mpr fun m hm => hall m (k.modifiers_sublist.subset hm)

theorem not_plus_of_parted (k : Key) : ∀ w ∈ k.modifiers.map String.toList ++ [[]], '+' ∉ w :=
  List.forall_mem_append.mpr ⟨k.not_plus_of_modifiers, List.forall_mem_singleton.mpr List.not_mem_nil⟩

theorem token_eq (k : Key) :
    k.token = String.ofList (written (k.modifiers.map String.toList) k.name.toList) := by
  rw [token, written, List.flatMap_map]

/-- The token of a plus sign has a blank word before the last plus sign. -/
theorem token_plus (h : k.name = "+") :
    k.token = String.ofList (written (k.modifiers.map String.toList ++ [[]]) []) := by
  rw [token_eq, h, written_concat, written, written, List.append_nil]
  rfl

theorem split_token (h : Nameable k.name) :
    words (split k.token.toList).1 = k.modifiers ∧ (split k.token.toList).2 = k.name.toList := by
  have hmods := filterMap_word? fun m hm => k.modifiers_sublist.subset hm
  rcases h with hname | ⟨hne, hname⟩
  · obtain ⟨hwords, hrest⟩ := split_written k.not_plus_of_parted List.not_mem_nil
    rw [token_plus hname, String.toList_ofList, hwords, hrest, List.filterMap_append, hmods, hname]
    exact ⟨List.append_nil _, if_pos ⟨rfl, by simp⟩⟩
  · obtain ⟨hwords, hrest⟩ := split_written k.not_plus_of_modifiers hname
    rw [token_eq, String.toList_ofList, hwords, hrest, hmods]
    exact ⟨rfl, if_neg fun hnil => hne (String.toList_eq_nil_iff.mp hnil.1)⟩

theorem parse_token (h : Nameable k.name) : parse k.token = .ok k.shown := by
  obtain ⟨hwords, hname⟩ := split_token h
  obtain ⟨hctrl, halt, hshift⟩ := k.contains_modifiers
  rw [parse_eq_ok_iff, hwords, hname, hctrl, halt, hshift, String.ofList_toList]
  exact ⟨fun m hm => k.modifiers_sublist.subset hm, rfl⟩

/-- What is read from a token has a name that a token can hold, or none, and then nothing else. -/
theorem nameable_of_parse {token : String} (h : parse token = .ok k) :
    Nameable k.name ∨ k = { name := "" } := by
  obtain ⟨ws, rest, rfl, hws, hrest⟩ := exists_ofList_written token
  have hreads := (parse_written hws hrest).mp h
  by_cases hempty : rest = []
  · by_cases hnil : ws = []
    · subst hempty hnil
      obtain rfl := Except.ok.inj h
      exact .inr rfl
    · have hname := hreads.name
      rw [if_pos ⟨hempty, hnil⟩] at hname
      exact .inl (.inl (String.toList_inj.mp hname))
  · have hname := hreads.name
    rw [if_neg fun hcond => hempty hcond.1] at hname
    refine .inl (.inr ⟨fun hnone => hempty ?_, hname ▸ hrest⟩)
    rw [← hname, hnone]
    rfl

theorem parse_token_of_parse {token : String} (h : parse token = .ok k) :
    parse k.token = .ok k.shown := by
  rcases nameable_of_parse h with hname | rfl
  · exact parse_token hname
  · rfl

/-- Words that spell the same modifiers are read alike. -/
theorem Reads.of_same {ws' : List Text} (h : Reads ws rest k) (hne : rest ≠ [] ∨ ws ≠ [] ∧ ws' ≠ [])
    (hwords : ∀ w ∈ ws', (∀ c ∈ w, Text.isBlank c = true) ∨ ∃ m ∈ modifierNames, Spells w m)
    (hsame : ∀ m ∈ modifierNames, (∃ w ∈ ws, Spells w m) ↔ ∃ w ∈ ws', Spells w m) : Reads ws' rest k where
  words := hwords
  name := by
    rw [h.name]
    rcases hne with hrest | ⟨hws, hws'⟩
    · rw [if_neg fun hcond => hrest hcond.1, if_neg fun hcond => hrest hcond.1]
    · simp only [hws, hws', ne_eq, not_false_eq_true, and_true]
  ctrl := h.ctrl.trans (hsame "ctrl" (by decide))
  alt := h.alt.trans (hsame "alt" (by decide))
  shift := h.shift.trans (hsame "shift" (by decide))

/-- A key is read back from its token but for the shift of a single character, and the token of what is
read from any text is a normal form: it is read again, to the same token, and it names the modifiers in
their order before the name. A text is read exactly if each word before its last plus sign is blank or
spells a modifier, and neither the order of the words nor their case, their blanks or how often they come
makes a difference. -/
theorem token_normal_form :
    (∀ k : Key, Nameable k.name → parse k.token = .ok k.shown) ∧
    (∀ token k, parse token = .ok k → ∃ k', parse k.token = .ok k' ∧ k'.token = k.token) ∧
    (∀ k : Key, ∃ ms : List String, ms.Sublist modifierNames ∧
      k.token = String.ofList (written (ms.map String.toList) k.name.toList)) ∧
    (∀ t, ∃ ws rest, t = written ws rest ∧ (∀ w ∈ ws, '+' ∉ w) ∧ '+' ∉ rest) ∧
    ∀ ws rest, (∀ w ∈ ws, '+' ∉ w) → '+' ∉ rest →
      (∀ k, parse (String.ofList (written ws rest)) = .ok k ↔ Reads ws rest k) ∧
      ∀ ws' k, (∀ w ∈ ws', '+' ∉ w) → parse (String.ofList (written ws rest)) = .ok k →
        (rest ≠ [] ∨ ws ≠ [] ∧ ws' ≠ []) →
        (∀ w ∈ ws', (∀ c ∈ w, Text.isBlank c = true) ∨ ∃ m ∈ modifierNames, Spells w m) →
        (∀ m ∈ modifierNames, (∃ w ∈ ws, Spells w m) ↔ ∃ w ∈ ws', Spells w m) →
        parse (String.ofList (written ws' rest)) = .ok k := by
  refine ⟨fun k => parse_token, ?_, ?_, exists_written, ?_⟩
  · intro token k h
    exact ⟨k.shown, parse_token_of_parse h, k.token_shown⟩
  · exact fun k => ⟨k.modifiers, k.modifiers_sublist, k.token_eq⟩
  · intro ws rest hws hrest
    refine ⟨fun k => parse_written hws hrest, ?_⟩
    intro ws' k hws' hparse hne hwords hsame
    have hreads := (parse_written hws hrest).mp hparse
    exact (parse_written hws' hrest).mpr (hreads.of_same hne hwords hsame)

/-- Modifiers out of order, in capitals, twice and with blanks around them. -/
theorem token_of_loose_spelling :
    let k : Key := { name := "up", ctrl := true, shift := true }
    Nameable "up" ∧ parse "SHIFT + ctrl+Ctrl+up" = .ok k ∧ k.token = "ctrl+shift+up" ∧
    ∃ k', parse k.token = .ok k' ∧ k'.token = k.token := by
  intro k
  have hname : Nameable k.name := .inr ⟨by decide, by decide⟩
  have htoken : k.token = "ctrl+shift+up" := by decide +kernel
  have hshown : k.shown = k := by decide +kernel
  obtain ⟨hround, hidem, -, -, hread⟩ := token_normal_form
  have hparse := hround k hname
  let tidy := ["ctrl".toList, "shift".toList]
  let loose := ["SHIFT ".toList, " ctrl".toList, "Ctrl".toList]
  have htidy : k.token = String.ofList (written tidy "up".toList) := by decide +kernel
  have hloose : String.ofList (written loose "up".toList) = "SHIFT + ctrl+Ctrl+up" := by decide +kernel
  rw [htidy, hshown] at hparse
  obtain ⟨-, hforget⟩ := hread tidy "up".toList (by decide +kernel) (by decide +kernel)
  have hmods : ∀ m ∈ loose.filterMap word?, m ∈ modifierNames := by decide +kernel
  have hsame : ∀ m ∈ modifierNames, (∃ w ∈ tidy, Spells w m) ↔ ∃ w ∈ loose, Spells w m := by
    intro m hm
    rw [← contains_word?_iff hm, ← contains_word?_iff hm]
    revert m
    decide +kernel
  have hread' := hforget loose k (by decide +kernel) hparse (.inl (by decide +kernel))
    (mem_modifierNames_iff.mp hmods) hsame
  rw [hloose] at hread'
  exact ⟨hname, hread', htoken, hidem _ k hread'⟩

end Key
end ModalEditing
