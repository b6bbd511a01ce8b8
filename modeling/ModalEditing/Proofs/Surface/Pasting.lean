import ModalEditing.Proofs.Surface.Refusing
import ModalEditing.Proofs.Surface.Taking

namespace ModalEditing

namespace Text

/-- One copy can always be made. The number and the length of more have to stay below a signed word of 64
bits, and there has to be room for them. -/
def Copyable (room : Option ℕ) (n : ℕ) (t : Text) : Prop :=
  n ≤ 1 ∨ (n < wordLimit ∧ n * t.length < wordLimit ∧ ∀ r ∈ room, n * t.length ≤ r)

theorem copyError?_eq_none_iff {room : Option ℕ} {n : ℕ} {t : Text} :
    copyError? room n t = none ↔ Copyable room n t := by
  have hroom : room.any (· < n * t.length) = true ↔ ∃ r ∈ room, r < n * t.length := by
    cases room <;> simp
  unfold copyError? Copyable
  split_ifs with hone hmany hlong hfull
  · exact iff_of_true rfl (.inl hone)
  · simp [hone, Nat.not_lt.mpr hmany]
  · simp [hone, Nat.not_lt.mpr hlong]
  · obtain ⟨r, hr, hlt⟩ := hroom.mp hfull
    refine iff_of_false (by simp) ?_
    rintro (h | ⟨-, -, h⟩)
    · exact hone h
    · exact absurd hlt (Nat.not_lt.mpr (h r hr))
  · refine iff_of_true rfl (.inr ⟨Nat.lt_of_not_le hmany, Nat.lt_of_not_le hlong, fun r hr => ?_⟩)
    by_contra hlt
    exact hfull (hroom.mpr ⟨r, hr, Nat.lt_of_not_le hlt⟩)

/-- Rows as a text: each has a newline behind it. -/
def ofRows (ls : List Text) : Text := ls.flatMap (· ++ ['\n'])

theorem ofRows_cons (l : Text) (ls : List Text) : ofRows (l :: ls) = l ++ '\n' :: ofRows ls := by
  simp [ofRows]

theorem ofRows_append (ls ls' : List Text) : ofRows (ls ++ ls') = ofRows ls ++ ofRows ls' :=
  List.flatMap_append

theorem ofRows_eq_joinLines {ls : List Text} (hne : ls ≠ []) :
    ofRows ls = joinLines ls ++ ['\n'] := by
  induction ls with
  | nil => exact absurd rfl hne
  | cons l ls ih =>
    cases ls with
    | nil => rw [ofRows_cons, joinLines]; rfl
    | cons l' ls =>
      rw [joinLines, ofRows_cons, ih (List.cons_ne_nil l' ls), List.append_assoc, List.cons_append]
      exact List.cons_ne_nil l' ls

/-- The texts that end in a newline are rows. -/
theorem getLast?_eq_newline_iff {t : Text} :
    t.getLast? = some '\n' ↔ ∃ ls, ls ≠ [] ∧ (∀ l ∈ ls, '\n' ∉ l) ∧ t = ofRows ls := by
  constructor
  · intro h
    obtain ⟨s, rfl⟩ := List.getLast?_eq_some_iff.mp h
    refine ⟨lines s, lines_ne_nil s, fun l hl => newline_not_mem_of_mem_lines hl, ?_⟩
    rw [ofRows_eq_joinLines (lines_ne_nil s), joinLines_lines]
  · rintro ⟨ls, hne, -, rfl⟩
    rw [ofRows_eq_joinLines hne, List.getLast?_concat]

theorem lines_ofRows_append {ls : List Text} (h : ∀ l ∈ ls, '\n' ∉ l) (t : Text) :
    lines (ofRows ls ++ t) = ls ++ lines t := by
  induction ls with
  | nil => rfl
  | cons l ls ih =>
    rw [ofRows_cons, List.append_assoc, List.cons_append, lines_append_newline,
      lines_of_not_mem (h l List.mem_cons_self), ih fun l hl => h l (List.mem_cons_of_mem _ hl)]
    rfl

theorem copies_ofRows (n : ℕ) (ls : List Text) :
    copies n (ofRows ls) = ofRows (List.replicate n ls).flatten := by
  induction n with
  | zero => rfl
  | succ n ih =>
    rw [List.replicate_succ, List.flatten_cons, ofRows_append, ← ih]
    rfl

theorem mem_flatten_replicate {n : ℕ} (hn : n ≠ 0) {ls : List Text} {l : Text} :
    l ∈ (List.replicate n ls).flatten ↔ l ∈ ls := by
  simp [List.mem_flatten, List.mem_replicate, hn]

end Text

namespace TextArea
variable {a : TextArea} {x : Location}

theorem text_insert_within (hx : x.Within a.lines) (t : Text) :
    (a.insert t x).text = a.text.take (offsetIn a.lines x) ++ t ++ a.text.drop (offsetIn a.lines x) := by
  have hoffset : a.offset x = offsetIn a.lines x := by rw [offset, hx.clampTo_eq]
  simp only [insert, hoffset]
  rfl

/-- The parts of a text before a location and behind it, as lines. -/
theorem lines_parts_within (hx : x.Within a.lines) :
    Text.lines (a.text.take (offsetIn a.lines x))
        = a.lines.take x.row ++ [(a.line x.row).take x.col] ∧
      Text.lines (a.text.drop (offsetIn a.lines x))
        = (a.line x.row).drop x.col :: a.lines.drop (x.row + 1) := by
  have hend : Location.endOf (a.text.take (offsetIn a.lines x)) = x := hx.endOf_take
  have hparts := Location.lines_parts (a.text.take (offsetIn a.lines x))
    (a.text.drop (offsetIn a.lines x))
  rw [List.take_append_drop, hend] at hparts
  exact hparts

theorem lines_insert_rows {row : ℕ} (hrow : row < a.lines.length) {ls : List Text}
    (hls : ∀ l ∈ ls, '\n' ∉ l) :
    (a.insert (Text.ofRows ls) ⟨row, 0⟩).lines = a.lines.take row ++ ls ++ a.lines.drop row := by
  obtain ⟨hbefore, hbehind⟩ := lines_parts_within (within_row hrow)
  rw [List.take_zero] at hbefore
  rw [List.drop_zero, line_cons_drop hrow] at hbehind
  have hrest := Text.lines_ofRows_append hls (a.text.drop (offsetIn a.lines ⟨row, 0⟩))
  rw [hbehind] at hrest
  obtain ⟨y, bs, hcons⟩ := List.exists_cons_of_ne_nil
    (Text.lines_ne_nil (Text.ofRows ls ++ a.text.drop (offsetIn a.lines ⟨row, 0⟩)))
  rw [lines, text_insert_within (within_row hrow), List.append_assoc, List.append_assoc,
    Text.lines_append hbefore hcons, List.nil_append, ← hcons, hrest]

/-- Nothing is behind the end of the last row. -/
theorem drop_lastRow (a : TextArea) :
    a.text.drop (offsetIn a.lines ⟨a.lastRow, (a.line a.lastRow).length⟩) = [] := by
  have hrows := a.lastRow_add_one
  have hlast : a.lastRow < a.lines.length := by omega
  have hbehind := (lines_parts_within (within_rowEnd hlast)).2
  have hrest : a.lines.drop (a.lastRow + 1) = [] := List.drop_eq_nil_of_le (by omega)
  rw [List.drop_length, hrest] at hbehind
  exact (Text.joinLines_lines _).symm.trans (congrArg Text.joinLines hbehind)

/-- Rows put in behind the last one go with a newline before them and none behind. -/
theorem lines_insert_below {ls : List Text} (hne : ls ≠ []) (hls : ∀ l ∈ ls, '\n' ∉ l) :
    (a.insert ('\n' :: Text.joinLines ls) ⟨a.lastRow, (a.line a.lastRow).length⟩).lines
      = a.lines ++ ls := by
  have hrows := a.lastRow_add_one
  have hlast : a.lastRow < a.lines.length := by omega
  have hall := List.take_append_drop
    (offsetIn a.lines ⟨a.lastRow, (a.line a.lastRow).length⟩) a.text
  rw [drop_lastRow, List.append_nil] at hall
  rw [lines, text_insert_within (within_rowEnd hlast), drop_lastRow, hall, List.append_nil,
    Text.lines_append_newline, Text.lines_joinLines hne hls]
  rfl

end TextArea

namespace Desk
variable {d : Desk}

/-- Where rows have gone in, the first of them is there to go to. -/
theorem move_to_rows {t : Text} {x : Location} {row : ℕ} {ls : List Text}
    (hrow : row ≤ d.area.lines.length) (hne : ls ≠ [])
    (h : (d.area.insert t x).lines = d.area.lines.take row ++ ls ++ d.area.lines.drop row) :
    ((d.insert t x).move ⟨row, 0⟩).area.lines = d.area.lines.take row ++ ls ++ d.area.lines.drop row ∧
      ((d.insert t x).move ⟨row, 0⟩).area.cursor = ⟨row, 0⟩ := by
  refine ⟨h, ?_⟩
  have hpos := List.length_pos_iff.mpr hne
  have hlt : row < (d.area.insert t x).lines.length := by
    rw [h, List.length_append, List.length_append, List.length_take]
    omega
  exact (TextArea.within_row hlt).clampTo_eq

/-- Rows go in above the cursor's row, or below it, and the cursor goes to the first of them. -/
theorem paste_rows (hc : d.area.cursor.Within d.area.lines) {ls : List Text} (hne : ls ≠ [])
    (hls : ∀ l ∈ ls, '\n' ∉ l) (ht : d.state.unnamed = Text.ofRows ls) (after : Bool) {count : ℕ}
    (hcount : 0 < count) :
    let row := if after then d.row + 1 else d.row
    (d.paste after count).area.lines
        = d.area.lines.take row ++ (List.replicate count ls).flatten ++ d.area.lines.drop row ∧
      (d.paste after count).area.cursor = ⟨row, 0⟩ := by
  intro row
  have hrow : d.row < d.area.lines.length := hc.row
  have hrows := d.area.lastRow_add_one
  have hline : d.state.unnamed.getLast? = some '\n' :=
    Text.getLast?_eq_newline_iff.mpr ⟨ls, hne, hls, ht⟩
  have hfull : d.state.unnamed.isEmpty = false := by
    cases h : d.state.unnamed with
    | nil => simp [h] at hline
    | cons c t => rfl
  -- The rows that go in, all copies together.
  let block := (List.replicate count ls).flatten
  have hcopies : Text.copies count d.state.unnamed = Text.ofRows block := by
    rw [ht, Text.copies_ofRows]
  have hmem {l : Text} : l ∈ block ↔ l ∈ ls := Text.mem_flatten_replicate hcount.ne'
  have hparted : ∀ l ∈ block, '\n' ∉ l := fun l hl => hls l (hmem.mp hl)
  have hblock : block ≠ [] := by
    obtain ⟨l, hl⟩ := List.exists_mem_of_ne_nil ls hne
    exact List.ne_nil_of_mem (hmem.mpr hl)
  simp only [paste, hfull, hline, hcopies, Bool.false_eq_true, if_false, if_true]
  by_cases hbelow : after = true ∧ d.row = d.area.lastRow
  · obtain ⟨rfl, hlast⟩ := hbelow
    have hdrop : (Text.ofRows block).dropLast = Text.joinLines block := by
      rw [Text.ofRows_eq_joinLines hblock, List.dropLast_concat]
    have hend : d.row + 1 = d.area.lines.length := by omega
    rw [if_pos (by simpa using hlast), hdrop]
    refine move_to_rows (Nat.le_of_eq hend) hblock ?_
    rw [hend, List.take_length, List.drop_length, List.append_nil, hlast]
    exact TextArea.lines_insert_below hblock hparted
  · rw [if_neg (by simpa using hbelow)]
    have hlt : row < d.area.lines.length := by
      simp only [row]
      split_ifs with hafter
      · have hlast : d.row ≠ d.area.lastRow := fun h => hbelow ⟨hafter, h⟩
        omega
      · exact hrow
    exact move_to_rows (Nat.le_of_lt hlt) hblock (TextArea.lines_insert_rows hlt hparted)

/-- Other text goes into the cursor's row: before the cursor, or behind the character that it is on. -/
theorem paste_text (hc : d.area.cursor.Within d.area.lines) (hne : d.state.unnamed ≠ [])
    (hchars : d.state.unnamed.getLast? ≠ some '\n') (after : Bool) (count : ℕ) :
    let n := offsetIn d.area.lines d.area.cursor
      + if after ∧ d.col < (d.area.line d.row).length then 1 else 0
    (d.paste after count).area.text = d.area.text.take n
      ++ (List.replicate count d.state.unnamed).flatten ++ d.area.text.drop n := by
  intro n
  have hcol : d.col ≤ (d.area.line d.row).length := hc.col
  let x : Location := ⟨d.row, if after then min (d.area.line d.row).length (d.col + 1) else d.col⟩
  have hx : x.Within d.area.lines := by
    refine ⟨hc.row, ?_⟩
    show (if after then _ else _) ≤ (d.area.line d.row).length
    split_ifs <;> omega
  have hxcol : x.col = d.col + if after ∧ d.col < (d.area.line d.row).length then 1 else 0 := by
    cases after with
    | false => rfl
    | true =>
      show min (d.area.line d.row).length (d.col + 1) = _
      simp only [true_and]
      split_ifs <;> omega
  have hoffset : offsetIn d.area.lines x = n := by
    have hcursor : offsetIn d.area.lines d.area.cursor = offsetIn d.area.lines ⟨d.row, 0⟩ + d.col :=
      Location.offsetIn_row hc.row d.col
    calc offsetIn d.area.lines x
        = offsetIn d.area.lines ⟨d.row, 0⟩ + x.col := Location.offsetIn_row hc.row x.col
      _ = n := by rw [hxcol, ← Nat.add_assoc, ← hcursor]
  have hpaste : d.paste after count = d.insert (Text.copies count d.state.unnamed) x := by
    simp only [paste, List.isEmpty_eq_false_iff.mpr hne, hchars, Bool.false_eq_true, if_false, x]
  rw [hpaste, insert, TextArea.text_insert_within hx, hoffset]
  rfl

/-- A paste is carried out, or it is refused and changes nothing. -/
theorem apply_paste_cases {a : Action} {after : Bool}
    (ha : a.IsEdit (if after then "paste-after" else "paste-before")) :
    ((d.state.unnamed = [] ∨ Text.copyError? d.room a.count d.state.unnamed = none) ∧
        ∃ (os : List Output) (readOnly : Bool), d.apply a = ({ (d.begun a).paste after a.count with
          outputs := os, area.readOnly := readOnly }, none)) ∨
      ∃ (f : Text.CopyError) (os : List Output), d.state.unnamed ≠ [] ∧
        Text.copyError? d.room a.count d.state.unnamed = some f ∧
        d.apply a = ({ d with outputs := os }, some (.copies f)) := by
  let e : EditName := if after then .pasteAfter else .pasteBefore
  obtain ⟨hk, hn⟩ := ha
  have hlookup : EditName.names.lookup (a.name.getD "") = some e := by
    rw [hn]
    cases after <;> rfl
  have hrefusal : d.refusal? a.count e =
      if d.state.unnamed.isEmpty then none else Text.copyError? d.room a.count d.state.unnamed := by
    cases after <;> rfl
  have hedit : (d.begun a).edit a.count e = (d.begun a).paste after a.count := by
    cases after <;> rfl
  rcases d.apply_edit_cases hk hlookup with ⟨hnone, os, happly⟩ | ⟨f, os, hsome, happly⟩
  · rw [hedit] at happly
    refine .inl ⟨?_, os, _, happly⟩
    by_cases hempty : d.state.unnamed = []
    · exact .inl hempty
    · rw [hrefusal, List.isEmpty_eq_false_iff.mpr hempty, if_neg Bool.false_ne_true] at hnone
      exact .inr hnone
  · obtain ⟨-, hfull, hcopies⟩ := refusal?_eq_some.mp hsome
    exact .inr ⟨f, os, hfull, hcopies, happly⟩

/-- Pasting puts in what the unnamed register holds, as often as the count says: rows as rows of their
own, which the cursor goes to, and other text within the cursor's row. The register is not changed. Where
it is empty nothing happens, nor where so many copies cannot be made, but then pasting fails. How much
room there is for them is up to the host. -/
theorem pastes_register (d : Desk) (hc : d.area.cursor.Within d.area.lines) (a : Action) (after : Bool)
    (ha : a.IsEdit (if after then "paste-after" else "paste-before")) :
    let ls₀ := d.area.lines
    let t := d.state.unnamed
    let row := if after then d.area.cursor.row + 1 else d.area.cursor.row
    let n := offsetIn ls₀ d.area.cursor
      + if after ∧ d.area.cursor.col < (d.area.line d.area.cursor.row).length then 1 else 0
    let now := d.apply a
    let area := now.1.area
    now.1.state = d.state ∧
    (t = [] → now.2 = none ∧ area = { d.area with readOnly := area.readOnly }) ∧
    (t ≠ [] → Text.Copyable d.room a.count t →
      now.2 = none ∧
      (∀ ls, ls ≠ [] → (∀ l ∈ ls, '\n' ∉ l) → t = Text.ofRows ls →
        area.lines = ls₀.take row ++ (List.replicate a.count ls).flatten ++ ls₀.drop row ∧
          area.cursor = ⟨row, 0⟩) ∧
      (t.getLast? ≠ some '\n' →
        area.text = d.area.text.take n ++ (List.replicate a.count t).flatten ++ d.area.text.drop n)) ∧
    ∀ e, t ≠ [] → Text.copyError? d.room a.count t = some e →
      now.2 = some (.copies e) ∧ area = d.area := by
  intro ls₀ t row n now area
  rcases apply_paste_cases (d := d) ha with
    ⟨hmade, os, readOnly, happly⟩ | ⟨f, os, hfull, hcopies, happly⟩
  · let pasted := (d.begun a).paste after a.count
    have hnone : now.2 = none := congrArg Prod.snd happly
    have hstate : now.1.state = pasted.state := congrArg (fun r => r.1.state) happly
    have harea : area = { pasted.area with readOnly := area.readOnly } := by
      simp only [area, now, happly, pasted]
    refine ⟨hstate.trans (state_paste (d.begun a) after a.count), ?_, ?_, ?_⟩
    · intro hempty
      have hpasted : pasted = d.begun a := by
        have hisEmpty : (d.begun a).state.unnamed.isEmpty = true := List.isEmpty_iff.mpr hempty
        simp only [pasted, paste, hisEmpty, if_true]
      rw [hpasted] at harea
      exact ⟨hnone, harea⟩
    · intro hfull _
      refine ⟨hnone, ?_, ?_⟩
      · intro ls hls hparted ht
        obtain ⟨hlines, hcursor⟩ := paste_rows (d := d.begun a) hc hls hparted ht after a.count_pos
        rw [harea]
        exact ⟨hlines, hcursor⟩
      · intro hchars
        rw [harea]
        exact paste_text (d := d.begun a) hc hfull hchars after a.count
    · intro e hfull hcopies
      rcases hmade with hempty | hmade
      · exact absurd hempty hfull
      · cases hmade.symm.trans hcopies
  · refine ⟨congrArg (fun r => r.1.state) happly, fun hempty => absurd hempty hfull, ?_, ?_⟩
    · intro _ hmade
      cases (Text.copyError?_eq_none_iff.mpr hmade).symm.trans hcopies
    · intro e _ hcopies'
      obtain rfl := Option.some.inj (hcopies.symm.trans hcopies')
      exact ⟨congrArg Prod.snd happly, congrArg (fun r => r.1.area) happly⟩

def onLastRow (register : Text) : Desk :=
  { state := ({} : State).yank register, area := { text := ['a', '\n', 'b'], cursor := ⟨1, 1⟩ } }

/-- Below the last row go three copies of two rows, one of them empty; at the end of a row two copies of
another text. -/
theorem pastes_register_on_last_row :
    let rows := (onLastRow ['c', '\n', '\n']).apply
      { kind := .edit, name := some "paste-after", count := 3 }
    let text := (onLastRow ['c']).apply { kind := .edit, name := some "paste-after", count := 2 }
    (onLastRow ['c']).area.cursor.Within (onLastRow ['c']).area.lines ∧
    rows.2 = none ∧ rows.1.area.lines = [['a'], ['b'], ['c'], [], ['c'], [], ['c'], []] ∧
    rows.1.area.cursor = ⟨2, 0⟩ ∧
    text.2 = none ∧ text.1.area.text = ['a', '\n', 'b', 'c', 'c'] := by
  intro rows text
  have hc (register : Text) :
      (onLastRow register).area.cursor.Within (onLastRow register).area.lines :=
    ⟨Nat.one_lt_two, Nat.le_refl 1⟩
  obtain ⟨-, -, hrows, -⟩ := pastes_register (onLastRow ['c', '\n', '\n']) (hc _)
    { kind := .edit, name := some "paste-after", count := 3 } true ⟨rfl, rfl⟩
  obtain ⟨hnone, hrows, -⟩ := hrows (by decide) (.inr (by decide))
  obtain ⟨hlines, hcursor⟩ := hrows [['c'], []] (by decide) (by decide) (by decide)
  obtain ⟨-, -, htext, -⟩ := pastes_register (onLastRow ['c']) (hc _)
    { kind := .edit, name := some "paste-after", count := 2 } true ⟨rfl, rfl⟩
  obtain ⟨hnone', -, htext⟩ := htext (by decide) (.inr (by decide))
  exact ⟨hc _, hnone, hlines.trans (by decide), hcursor, hnone',
    (htext (by decide)).trans (by decide)⟩

/-- More copies than a signed word can count are not made: pasting fails, and the text has none of
them. -/
theorem too_many_copies_refused :
    let d := onLastRow ['c']
    let count := 9223372036854775808
    let n := offsetIn d.area.lines d.area.cursor
    let now := d.apply { kind := .edit, name := some "paste-before", count := count }
    d.area.cursor.Within d.area.lines ∧ d.state.unnamed = ['c'] ∧
    now.2 = some (.copies .tooMany) ∧ now.1.area.text = d.area.text ∧
    now.1.area.text ≠ d.area.text.take n ++ (List.replicate count ['c']).flatten
      ++ d.area.text.drop n := by
  intro d count n now
  have htext : now.1.area.text = d.area.text := rfl
  refine ⟨⟨Nat.one_lt_two, Nat.le_refl 1⟩, by decide, by decide +kernel, htext, ?_⟩
  intro h
  have hlength := congrArg List.length h
  rw [htext, List.flatten_replicate_singleton, List.length_append, List.length_append,
    List.length_take, List.length_drop, List.length_replicate] at hlength
  omega

end Desk
end ModalEditing
