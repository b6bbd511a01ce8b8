import ModalEditing.Proofs.Json.Numbers
import ModalEditing.Proofs.Json.Shape
import ModalEditing.Proofs.Maps

namespace ModalEditing.Json

section
variable (l : Layout)

mutual
/-- What stands behind a value does not change its text. -/
theorem text_append (depth : ℕ) : (j : Json) → (rest more : Text) →
    text l depth j (rest ++ more) = text l depth j rest ++ more
  | .null, rest, more | .bool _, rest, more | .int _, rest, more | .float _, rest, more
  | .str _, rest, more => by
    rw [text, text, List.append_assoc]
  | .arr [], rest, more | .obj [], rest, more => by
    rw [text, text]
    rfl
  | .arr (j :: js), rest, more => by
    rw [text, text, itemsText_append depth js rest more, text_append (depth + 1) j]
    simp only [List.append_assoc, List.cons_append]
  | .obj ((k, j) :: fs), rest, more => by
    rw [text, text, fieldsText_append depth fs rest more, text_append (depth + 1) j]
    simp only [List.append_assoc, List.cons_append]

theorem itemsText_append (depth : ℕ) : (js : List Json) → (rest more : Text) →
    itemsText l depth js (rest ++ more) = itemsText l depth js rest ++ more
  | [], rest, more => by
    simp only [itemsText, List.append_assoc, List.cons_append]
  | j :: js, rest, more => by
    rw [itemsText, itemsText, itemsText_append depth js rest more, text_append (depth + 1) j,
      List.append_assoc]

theorem fieldsText_append (depth : ℕ) : (fs : List (Str × Json)) → (rest more : Text) →
    fieldsText l depth fs (rest ++ more) = fieldsText l depth fs rest ++ more
  | [], rest, more => by
    simp only [fieldsText, List.append_assoc, List.cons_append]
  | (k, j) :: fs, rest, more => by
    rw [fieldsText, fieldsText, fieldsText_append depth fs rest more, text_append (depth + 1) j]
    simp only [List.append_assoc, List.cons_append]
end

theorem le_length_text (depth : ℕ) (j : Json) (rest : Text) :
    rest.length ≤ (text l depth j rest).length := by
  have hsplit : text l depth j rest = text l depth j [] ++ rest := text_append l depth j [] rest
  rw [hsplit, List.length_append]
  exact Nat.le_add_left _ _

end

namespace Reader
variable {l : Layout} {d depth fuel : ℕ} {j : Json} {t rest : Text}

theorem gap_isGap (l : Layout) (depth : ℕ) : ∀ c ∈ l.gap depth, isGap c = true := by
  intro c hc
  cases l with
  | line => cases hc
  | block =>
    rcases List.mem_cons.mp hc with rfl | hc
    · rfl
    · rw [List.eq_of_mem_replicate hc]
      rfl

theorem skip_gap (l : Layout) (depth : ℕ) (t : Text) : skip (l.gap depth ++ t) = skip t :=
  List.dropWhile_append_of_pos (gap_isGap l depth)

/-- A comma stands between two items, and only gaps are behind it. -/
theorem comma_cases (l : Layout) (depth : ℕ) : ∃ g, l.comma depth = ',' :: g ∧
    ∀ t, skip (g ++ t) = skip t := by
  cases l with
  | line => exact ⟨[' '], rfl, fun t => rfl⟩
  | block => exact ⟨_, rfl, skip_gap .block depth⟩

/-- The text begins like that of a value: neither with a gap nor with a bracket that closes. -/
def Opens (t : Text) : Prop := ∃ c t', t = c :: t' ∧ isGap c = false ∧ c ≠ ']'

theorem skip_of_opens (h : Opens t) : skip t = t := by
  obtain ⟨c, t, rfl, hc, -⟩ := h
  exact List.dropWhile_cons_of_neg (by simp [hc])

theorem strText_append (s : Str) (t : Text) :
    strText s ++ t = '"' :: (s.flatMap escape ++ '"' :: t) := by
  rw [strText, List.append_assoc, List.cons_append]
  rfl

theorem int_cases (n : ℤ) : ∃ c t, c.isDigit = true ∧
    ((toString n).toList = c :: t ∨ (toString n).toList = '-' :: c :: t) := by
  have hdigits (m : ℕ) : ∃ c t, c.isDigit = true ∧ (toString m).toList = c :: t := by
    obtain ⟨c, t, ht⟩ := List.exists_cons_of_ne_nil (Nat.toDigits_ne_nil (b := 10) (n := m))
    refine ⟨c, t, Nat.isDigit_of_mem_toDigits (b := 10) (n := m) (by decide) (by decide) ?_, ?_⟩
    · rw [ht]
      exact List.mem_cons_self
    · rw [Nat.toString_eq_ofList_toDigits, String.toList_ofList, ht]
  cases n with
  | ofNat m =>
    obtain ⟨c, t, hc, ht⟩ := hdigits m
    exact ⟨c, t, hc, .inl ht⟩
  | negSucc m =>
    obtain ⟨c, t, hc, ht⟩ := hdigits (m + 1)
    refine ⟨c, t, hc, .inr ?_⟩
    show ("-" ++ toString (m + 1)).toList = _
    rw [String.toList_append, ht]
    rfl

theorem digit_opens {c : Char} (h : c.isDigit = true) : isGap c = false ∧ c ≠ ']' := by
  have hne : ∀ d : Char, d.isDigit = false → c ≠ d := fun d hd => Number.isDigit_ne h hd
  have h1 := hne ' ' rfl
  have h2 := hne '\t' rfl
  have h3 := hne '\n' rfl
  have h4 := hne '\r' rfl
  exact ⟨by simp [isGap, h1, h2, h3, h4], hne ']' rfl⟩

theorem text_opens (h : Exact j) (l : Layout) (depth : ℕ) (rest : Text) :
    Opens (text l depth j rest) := by
  cases h with
  | null => exact ⟨'n', _, rfl, rfl, by decide⟩
  | bool b =>
    cases b with
    | true => exact ⟨'t', _, rfl, rfl, by decide⟩
    | false => exact ⟨'f', _, rfl, rfl, by decide⟩
  | int n =>
    rw [text]
    obtain ⟨c, t, hc, ht | ht⟩ := int_cases n
    · rw [ht]
      exact ⟨c, _, rfl, digit_opens hc⟩
    · rw [ht]
      exact ⟨'-', _, rfl, rfl, by decide⟩
  | str hs =>
    rw [text, strText_append]
    exact ⟨'"', _, rfl, rfl, by decide⟩
  | @arr items _ =>
    cases items with
    | nil => exact ⟨'[', _, rfl, rfl, by decide⟩
    | cons j js => exact ⟨'[', _, rfl, rfl, by decide⟩
  | @obj fields _ _ =>
    cases fields with
    | nil => exact ⟨'\x7b', _, rfl, rfl, by decide⟩
    | cons f fs => exact ⟨'\x7b', _, rfl, rfl, by decide⟩

theorem value_of_digit {c : Char} (hc : c.isDigit = true) (limits : Limits) (fuel : ℕ) (t : Text) :
    value limits (fuel + 1) (c :: t) = orMalformed (number limits.digits (c :: t)) := by
  have hne : ∀ d : Char, d.isDigit = false → c ≠ d := fun d hd => Number.isDigit_ne hc hd
  rw [value]
  all_goals
    rintro _ h
    exact absurd (List.cons.inj h).1 (hne _ rfl)

theorem value_of_minus {c : Char} (hc : c.isDigit = true) (limits : Limits) (fuel : ℕ) (t : Text) :
    value limits (fuel + 1) ('-' :: c :: t) = orMalformed (number limits.digits ('-' :: c :: t)) := by
  have hne : c ≠ 'I' := Number.isDigit_ne hc rfl
  rw [value]
  all_goals
    rintro _ h
    first
    | exact absurd (List.cons.inj h).1 (by decide)
    | exact absurd (List.cons.inj (List.cons.inj h).2).1 hne

theorem value_int {n : ℤ} (hn : n.natAbs < Nat.pow 10 Number.digitLimit) (hr : Number.Ends rest) :
    value (.within d) (fuel + 1) (text l depth (.int n) rest) = .ok (.int n, rest) := by
  have hnumber := number_toString hn (by decide) hr
  obtain ⟨c, t, hc, ht | ht⟩ := int_cases n
  · rw [text]
    rw [ht] at hnumber ⊢
    rw [List.cons_append] at hnumber ⊢
    rw [value_of_digit hc]
    show orMalformed (number (some Number.digitLimit) _) = _
    rw [hnumber]
    rfl
  · rw [text]
    rw [ht] at hnumber ⊢
    rw [List.cons_append, List.cons_append] at hnumber ⊢
    rw [value_of_minus hc]
    show orMalformed (number (some Number.digitLimit) _) = _
    rw [hnumber]
    rfl

theorem value_str {s : Str} (hs : s.Whole) :
    value (.within d) (fuel + 1) (text l depth (.str s) rest) = .ok (.str s, rest) := by
  rw [text, strText_append, value, string_strText hs]
  rfl

/-- The reader gets back each exact value of this depth, whatever ends a number behind it. -/
def ReadsBack (l : Layout) (d : ℕ) : Prop :=
  ∀ {j : Json} {depth fuel : ℕ} {rest : Text}, Exact j → Shaped d j → Number.Ends rest →
    2 * (text l depth j rest).length < fuel →
    value (.within d) fuel (text l depth j rest) = .ok (j, rest)

theorem ends_cons {c : Char} (hc : c.isDigit = false) (hne : c ≠ '.' ∧ c ≠ 'e' ∧ c ≠ 'E') (t : Text) :
    Number.Ends (c :: t) := by
  intro x hx
  obtain rfl := Option.some.inj hx
  exact ⟨hc, hne⟩

theorem ends_gap {c : Char} (hc : c.isDigit = false) (hne : c ≠ '.' ∧ c ≠ 'e' ∧ c ≠ 'E')
    (l : Layout) (depth : ℕ) (t : Text) : Number.Ends (l.gap depth ++ c :: t) := by
  cases l with
  | line => exact ends_cons hc hne t
  | block => exact ends_cons rfl (by decide) _

theorem ends_comma (l : Layout) (depth : ℕ) (t : Text) : Number.Ends (l.comma depth ++ t) := by
  obtain ⟨g, hg, -⟩ := comma_cases l depth
  rw [hg, List.cons_append]
  exact ends_cons rfl (by decide) _

theorem ends_itemsText (l : Layout) (depth : ℕ) (js : List Json) (rest : Text) :
    Number.Ends (itemsText l depth js rest) := by
  cases js with
  | nil =>
    rw [itemsText]
    exact ends_gap rfl (by decide) l depth rest
  | cons j js =>
    rw [itemsText]
    exact ends_comma l (depth + 1) _

theorem ends_fieldsText (l : Layout) (depth : ℕ) (fs : List (Str × Json)) (rest : Text) :
    Number.Ends (fieldsText l depth fs rest) := by
  cases fs with
  | nil =>
    rw [fieldsText]
    exact ends_gap rfl (by decide) l depth rest
  | cons f fs =>
    obtain ⟨k, j⟩ := f
    rw [fieldsText, List.append_assoc]
    exact ends_comma l (depth + 1) _

theorem skip_close {c : Char} (hc : isGap c = false) (l : Layout) (depth : ℕ) (t : Text) :
    skip (l.gap depth ++ c :: t) = c :: t := by
  rw [skip_gap]
  exact List.dropWhile_cons_of_neg (by simp [hc])

/-- The items of an array come back when each item does. -/
theorem items_text (h : ReadsBack l d) {js : List Json} (hexact : ∀ i ∈ j :: js, Exact i)
    (hshaped : ∀ i ∈ j :: js, Shaped d i)
    (hfuel : 2 * (text l (depth + 1) j (itemsText l depth js rest)).length + 1 < fuel) :
    items (.within d) fuel (text l (depth + 1) j (itemsText l depth js rest))
      = .ok (j :: js, rest) := by
  -- On the items still to come, so that the item at hand is followed by a bracket or a comma.
  induction js generalizing j fuel with
  | nil =>
    obtain ⟨fuel, rfl⟩ : ∃ n, fuel = n + 1 := ⟨fuel - 1, by omega⟩
    have hvalue := h (hexact j List.mem_cons_self) (hshaped j List.mem_cons_self)
      (ends_itemsText l depth [] rest) (Nat.lt_of_succ_lt_succ hfuel)
    have hskip : skip (l.gap depth ++ ']' :: rest) = ']' :: rest := skip_close rfl l depth rest
    rw [itemsText] at hvalue ⊢
    simp only [items, hvalue, hskip, bind, Except.bind]
  | cons i js ih =>
    obtain ⟨fuel, rfl⟩ : ∃ n, fuel = n + 1 := ⟨fuel - 1, by omega⟩
    obtain ⟨hj, hexact⟩ := List.forall_mem_cons.mp hexact
    obtain ⟨hs, hshaped⟩ := List.forall_mem_cons.mp hshaped
    have hvalue := h hj hs (ends_itemsText l depth (i :: js) rest) (Nat.lt_of_succ_lt_succ hfuel)
    have hlength := le_length_text l (depth + 1) j (itemsText l depth (i :: js) rest)
    obtain ⟨g, hg, hskip⟩ := comma_cases l (depth + 1)
    have htext : itemsText l depth (i :: js) rest
        = ',' :: (g ++ text l (depth + 1) i (itemsText l depth js rest)) := by
      rw [itemsText, hg, List.cons_append]
    have hrest : items (.within d) fuel (text l (depth + 1) i (itemsText l depth js rest))
        = .ok (i :: js, rest) := by
      refine ih hexact hshaped ?_
      simp only [htext, List.length_cons, List.length_append] at hlength hfuel
      omega
    have hcomma (t : Text) : skip (',' :: t) = ',' :: t := rfl
    have hopens := text_opens (hexact i List.mem_cons_self) l (depth + 1) (itemsText l depth js rest)
    rw [htext] at hvalue ⊢
    simp only [items, hvalue, hcomma, hskip, skip_of_opens hopens, hrest, bind, Except.bind]

section
variable {k : Str} {before : List (Str × Json)}

/-- A key and its value are read, and what stands behind them tells whether the object goes on. -/
theorem fields_step (h : ReadsBack l d) (hk : k.Whole) (hj : Exact j) (hs : Shaped d j)
    (ht : Number.Ends t) (hfuel : 2 * (text l depth j t).length < fuel) :
    fields (.within d) (fuel + 1) before (strText k ++ ':' :: ' ' :: text l depth j t)
      = match skip t with
        | '\x7d' :: rest => .ok (Assoc.put k j before, rest)
        | ',' :: rest => fields (.within d) fuel (Assoc.put k j before) (skip rest)
        | _ => .error .malformed := by
  have hcolon (t : Text) : skip (':' :: t) = ':' :: t := rfl
  have hspace (t : Text) : skip (' ' :: t) = skip t := rfl
  have hvalue := h hj hs ht hfuel
  rw [strText_append]
  simp only [fields, string_strText hk, orMalformed, hcolon, hspace,
    skip_of_opens (text_opens hj l depth t), bind, Except.bind]
  generalize value (.within d) fuel (text l depth j t) = r at hvalue ⊢
  subst hvalue
  rfl

/-- A comma and a gap stand before each field but the first. -/
theorem fieldsText_cons (l : Layout) (depth : ℕ) (k : Str) (j : Json) (fs : List (Str × Json))
    (rest : Text) :
    let field := strText k ++ ':' :: ' ' :: text l (depth + 1) j (fieldsText l depth fs rest)
    ∃ g, fieldsText l depth ((k, j) :: fs) rest = ',' :: (g ++ field) ∧ skip (g ++ field) = field := by
  intro field
  obtain ⟨g, hg, hgap⟩ := comma_cases l (depth + 1)
  refine ⟨g, ?_, ?_⟩
  · rw [fieldsText, hg, List.cons_append, List.cons_append, List.append_assoc]
  · have hopens : Opens field := ⟨'"', _, strText_append k _, rfl, by decide⟩
    rw [hgap, skip_of_opens hopens]

/-- A key goes to the end of those read before, for it is none of them. -/
theorem put_next {fs : List (Str × Json)} (h : ((before ++ (k, j) :: fs).map Prod.fst).Nodup) :
    Assoc.put k j before = before ++ [(k, j)] := by
  refine Assoc.put_of_new fun hk => ?_
  rw [List.map_append, List.nodup_append] at h
  exact h.2.2 k hk k List.mem_cons_self rfl

/-- The fields of an object come back behind those read before when each value does. -/
theorem fields_text (h : ReadsBack l d) {fs : List (Str × Json)}
    (hkeys : ∀ f ∈ (k, j) :: fs, f.1.Whole) (hexact : ∀ f ∈ (k, j) :: fs, Exact f.2)
    (hshaped : ∀ f ∈ (k, j) :: fs, Shaped d f.2)
    (hnodup : ((before ++ (k, j) :: fs).map Prod.fst).Nodup)
    (hfuel : 2 * (text l (depth + 1) j (fieldsText l depth fs rest)).length + 1 < fuel) :
    fields (.within d) fuel before
        (strText k ++ ':' :: ' ' :: text l (depth + 1) j (fieldsText l depth fs rest))
      = .ok (before ++ (k, j) :: fs, rest) := by
  induction fs generalizing k j fuel before with
  | nil =>
    obtain ⟨fuel, rfl⟩ : ∃ n, fuel = n + 1 := ⟨fuel - 1, by omega⟩
    have hskip : skip (fieldsText l depth [] rest) = '\x7d' :: rest := by
      rw [fieldsText]
      exact skip_close rfl l depth rest
    rw [fields_step h (hkeys _ List.mem_cons_self) (hexact _ List.mem_cons_self)
      (hshaped _ List.mem_cons_self) (ends_fieldsText l depth [] rest) (Nat.lt_of_succ_lt_succ hfuel),
      hskip, put_next hnodup]
    rfl
  | cons f fs ih =>
    obtain ⟨k', j'⟩ := f
    obtain ⟨fuel, rfl⟩ : ∃ n, fuel = n + 1 := ⟨fuel - 1, by omega⟩
    obtain ⟨hk, hkeys⟩ := List.forall_mem_cons.mp hkeys
    obtain ⟨hj, hexact⟩ := List.forall_mem_cons.mp hexact
    obtain ⟨hs, hshaped⟩ := List.forall_mem_cons.mp hshaped
    obtain ⟨g, htext, hgap⟩ := fieldsText_cons l depth k' j' fs rest
    have hcomma (t : Text) : skip (',' :: t) = ',' :: t := rfl
    have hlength := le_length_text l (depth + 1) j (fieldsText l depth ((k', j') :: fs) rest)
    have hsplit : before ++ (k, j) :: (k', j') :: fs = (before ++ [(k, j)]) ++ (k', j') :: fs := by
      rw [List.append_assoc, List.singleton_append]
    rw [fields_step h hk hj hs (ends_fieldsText l depth _ rest) (Nat.lt_of_succ_lt_succ hfuel),
      put_next hnodup, htext, hcomma, hsplit]
    simp only [hgap]
    refine ih hkeys hexact hshaped (hsplit ▸ hnodup) ?_
    simp only [htext, List.length_cons, List.length_append] at hlength hfuel
    omega

end

theorem value_array (h : ReadsBack l d) {items : List Json} (hexact : ∀ i ∈ items, Exact i)
    (hshaped : ∀ i ∈ items, Shaped d i) (hfuel : 2 * (text l depth (.arr items) rest).length < fuel) :
    value (.within (d + 1)) fuel (text l depth (.arr items) rest) = .ok (.arr items, rest) := by
  have hinner : (Limits.within (d + 1)).inner? = some (.within d) := rfl
  obtain ⟨fuel, rfl⟩ : ∃ n, fuel = n + 1 := ⟨fuel - 1, by omega⟩
  cases items with
  | nil =>
    rw [text, value]
    rfl
  | cons j js =>
    have hopens := text_opens (hexact j List.mem_cons_self) l (depth + 1) (itemsText l depth js rest)
    have hitems : Reader.items (.within d) fuel (text l (depth + 1) j (itemsText l depth js rest))
        = .ok (j :: js, rest) := by
      refine items_text h hexact hshaped ?_
      simp only [text, List.length_cons, List.length_append] at hfuel
      omega
    have hskip := skip_of_opens hopens
    obtain ⟨c, t, ht, -, hclose⟩ := hopens
    -- No value begins with the bracket that would close the array.
    rw [ht] at hitems hskip
    rw [text, value, ht]
    simp only [hinner, skip_gap, hskip]
    split
    · rename_i hclosed
      exact absurd (List.cons.inj hclosed).1 hclose
    · rw [hitems]
      rfl

theorem value_object (h : ReadsBack l d) {fs : List (Str × Json)} (hkeys : ∀ f ∈ fs, f.1.Whole)
    (hexact : ∀ f ∈ fs, Exact f.2) (hshaped : Shaped (d + 1) (.obj fs))
    (hfuel : 2 * (text l depth (.obj fs) rest).length < fuel) :
    value (.within (d + 1)) fuel (text l depth (.obj fs) rest) = .ok (.obj fs, rest) := by
  have hinner : (Limits.within (d + 1)).inner? = some (.within d) := rfl
  obtain ⟨fuel, rfl⟩ : ∃ n, fuel = n + 1 := ⟨fuel - 1, by omega⟩
  cases fs with
  | nil =>
    rw [text, value]
    rfl
  | cons f fs =>
    obtain ⟨k, j⟩ := f
    have hfields : fields (.within d) fuel []
        (strText k ++ ':' :: ' ' :: text l (depth + 1) j (fieldsText l depth fs rest))
          = .ok ((k, j) :: fs, rest) := by
      refine fields_text h hkeys hexact hshaped.2 hshaped.1 ?_
      simp only [text, List.length_cons, List.length_append] at hfuel
      omega
    rw [strText_append] at hfields
    have hquote (t : Text) : skip ('"' :: t) = '"' :: t := rfl
    rw [text, value, List.append_assoc, strText_append]
    simp only [hinner, skip_gap, hquote]
    split
    · rename_i hclosed
      exact absurd (List.cons.inj hclosed).1 (by decide)
    · rw [hfields]
      rfl

/-- What is no collection comes back at any depth. -/
theorem value_flat (hj : Exact j) (hs : Shaped 0 j) (hr : Number.Ends rest) :
    value (.within d) (fuel + 1) (text l depth j rest) = .ok (j, rest) := by
  cases hj with
  | null => rfl
  | bool b => cases b <;> rfl
  | int n => exact value_int (shaped_int.mp hs) hr
  | str hw => exact value_str hw
  | arr => exact hs.elim
  | obj => exact hs.elim

theorem readsBack (l : Layout) (d : ℕ) : ReadsBack l d := by
  induction d with
  | zero =>
    intro j depth fuel rest hj hs hr hfuel
    obtain ⟨fuel, rfl⟩ : ∃ n, fuel = n + 1 := ⟨fuel - 1, by omega⟩
    exact value_flat hj hs hr
  | succ d ih =>
    intro j depth fuel rest hj hs hr hfuel
    obtain ⟨n, rfl⟩ : ∃ n, fuel = n + 1 := ⟨fuel - 1, by omega⟩
    cases hj with
    | null => exact value_flat .null trivial hr
    | bool b => exact value_flat (.bool b) trivial hr
    | int n => exact value_flat (.int n) (shaped_int.mpr (shaped_int.mp hs)) hr
    | str hw => exact value_flat (.str hw) trivial hr
    | arr hexact => exact value_array ih hexact hs hfuel
    | obj hkeys hexact => exact value_object ih hkeys hexact hs hfuel

end Reader

/-- Reading undoes writing, whatever blanks end the text. -/
theorem read_text {l : Layout} {d : ℕ} {j : Json} (hj : Exact j) (hs : Shaped d j) {gap : Text}
    (hgap : ∀ c ∈ gap, Reader.isGap c = true) :
    Json.read (.within d) (text l 0 j gap) = .ok j := by
  have hends : Number.Ends gap := by
    intro c hc
    have hgap := hgap c (List.mem_of_head? hc)
    simp only [Reader.isGap, Bool.or_eq_true, decide_eq_true_eq] at hgap
    rcases hgap with ((rfl | rfl) | rfl) | rfl <;> decide
  have hskip : Reader.skip gap = [] := List.dropWhile_eq_nil_iff.mpr hgap
  rw [Json.read, Reader.skip_of_opens (Reader.text_opens hj l 0 gap),
    Reader.readsBack l d hj hs hends (Nat.lt_succ_of_lt (Nat.lt_succ_self _))]
  simp only [bind, Except.bind, hskip]
  rfl

end ModalEditing.Json
