import ModalEditing.Proofs.TextArea.Location

namespace ModalEditing

namespace Text

/-- The last line of a text goes on in the first line of the text behind it. -/
theorem lines_append {s t : Text} {as bs : List Text} {x y : Text} (hs : lines s = as ++ [x])
    (ht : lines t = y :: bs) : lines (s ++ t) = as ++ (x ++ y) :: bs := by
  -- The first line of the first text is also its last just where no line is before it.
  induction s generalizing as x with
  | nil =>
    obtain ⟨rfl, rfl⟩ : as = [] ∧ x = [] := by
      have hone : [] ++ [([] : Text)] = as ++ [x] := hs
      obtain ⟨has, hx⟩ := List.append_inj' hone rfl
      exact ⟨has.symm, (List.singleton_inj.mp hx).symm⟩
    exact ht
  | cons c s ih =>
    by_cases hc : c = '\n'
    · subst hc
      have hcons : [] :: lines s = as ++ [x] := hs
      cases as with
      | nil =>
        have hnil : lines s = [] := (List.cons.inj hcons).2
        exact absurd hnil (lines_ne_nil s)
      | cons a as =>
        obtain ⟨rfl, htail⟩ := List.cons.inj hcons
        exact congrArg (List.cons []) (ih htail)
    · obtain ⟨l, ls, hl, hcl⟩ := lines_cons hc s
      rw [hcl] at hs
      have hst : ∃ l' ls', lines (s ++ t) = l' :: ls' ∧ lines (c :: (s ++ t)) = (c :: l') :: ls' :=
        lines_cons hc (s ++ t)
      obtain ⟨l', ls', hl', hcl'⟩ := hst
      cases as with
      | nil =>
        obtain ⟨rfl, rfl⟩ := List.cons.inj hs
        have hone : lines s = [] ++ [l] := hl
        have hlines := ih hone
        rw [hl'] at hlines
        obtain ⟨rfl, rfl⟩ := List.cons.inj hlines
        exact hcl'
      | cons a as =>
        obtain ⟨rfl, rfl⟩ := List.cons.inj hs
        have hmore : lines s = (l :: as) ++ [x] := hl
        have hlines := ih hmore
        rw [hl'] at hlines
        obtain ⟨rfl, rfl⟩ := List.cons.inj hlines
        exact hcl'

theorem lines_of_not_mem {c : Text} (h : '\n' ∉ c) : lines c = [c] := by
  induction c with
  | nil => rfl
  | cons x c ih =>
    obtain ⟨hx, hc⟩ : '\n' ≠ x ∧ '\n' ∉ c := by simpa using h
    obtain ⟨l, ls, hl, hcl⟩ := lines_cons (Ne.symm hx) c
    rw [ih hc] at hl
    obtain ⟨rfl, rfl⟩ := List.cons.inj hl
    exact hcl

/-- A newline parts the lines before it from those behind it. -/
theorem lines_append_newline (s t : Text) : lines (s ++ '\n' :: t) = lines s ++ lines t := by
  obtain ⟨as, x, hs⟩ : ∃ as x, lines s = as ++ [x] :=
    ⟨_, _, (List.dropLast_concat_getLast (lines_ne_nil s)).symm⟩
  have ht : lines ('\n' :: t) = [] :: lines t := rfl
  rw [lines_append hs ht, hs, List.append_nil, List.append_assoc, List.singleton_append]

theorem newline_not_mem_of_mem_lines {t l : Text} (h : l ∈ lines t) : '\n' ∉ l := by
  induction t generalizing l with
  | nil =>
    rw [List.mem_singleton.mp h]
    exact List.not_mem_nil
  | cons c t ih =>
    by_cases hc : c = '\n'
    · subst hc
      rcases List.mem_cons.mp h with rfl | h
      · exact List.not_mem_nil
      · exact ih h
    · obtain ⟨l', ls, hl, hcl⟩ := lines_cons hc t
      rw [hl] at ih
      rw [hcl] at h
      rcases List.mem_cons.mp h with rfl | h
      · have hl' : '\n' ∉ l' := ih List.mem_cons_self
        simp [Ne.symm hc, hl']
      · exact ih (List.mem_cons_of_mem _ h)

theorem lines_joinLines {ls : List Text} (hne : ls ≠ []) (h : ∀ l ∈ ls, '\n' ∉ l) :
    lines (joinLines ls) = ls := by
  induction ls with
  | nil => exact absurd rfl hne
  | cons l ls ih =>
    have hl := lines_of_not_mem (h l List.mem_cons_self)
    cases ls with
    | nil => exact hl
    | cons l' ls =>
      rw [joinLines, lines_append_newline, hl, List.singleton_append,
        ih (List.cons_ne_nil l' ls) fun l hl => h l (List.mem_cons_of_mem _ hl)]
      exact List.cons_ne_nil l' ls

theorem length_lines (t : Text) : (lines t).length = t.count '\n' + 1 := by
  induction t with
  | nil => rfl
  | cons c t ih =>
    by_cases hc : c = '\n'
    · subst hc
      rw [List.count_cons_self, ← ih]
      rfl
    · obtain ⟨l, ls, hl, hcl⟩ := lines_cons hc t
      rw [List.count_cons_of_ne hc, ← ih, hl, hcl, List.length_cons, List.length_cons]

end Text

namespace Location
variable {p u : Text}

/-- The lines up to the end of a beginning and from there on, one line parted between the two. -/
theorem lines_parts (p u : Text) :
    Text.lines p = (Text.lines (p ++ u)).take (endOf p).row
        ++ [((Text.lines (p ++ u)).getD (endOf p).row []).take (endOf p).col] ∧
      Text.lines u = ((Text.lines (p ++ u)).getD (endOf p).row []).drop (endOf p).col
        :: (Text.lines (p ++ u)).drop ((endOf p).row + 1) := by
  have hp : Text.lines p = (Text.lines p).dropLast ++ [(Text.lines p).getLast (Text.lines_ne_nil p)] :=
    (List.dropLast_concat_getLast (Text.lines_ne_nil p)).symm
  generalize (Text.lines p).dropLast = as at hp
  generalize (Text.lines p).getLast (Text.lines_ne_nil p) = x at hp
  obtain ⟨y, bs, hu⟩ := List.exists_cons_of_ne_nil (Text.lines_ne_nil u)
  have hend : endOf p = ⟨as.length, x.length⟩ := by
    rw [endOf_eq, hp]
    simp
  rw [hend, Text.lines_append hp hu, hp, hu]
  simp

end Location

end ModalEditing
