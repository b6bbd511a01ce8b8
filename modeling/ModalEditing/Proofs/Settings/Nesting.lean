import ModalEditing.Settings.Store

namespace ModalEditing

namespace Json

theorem Reader.skip_brackets (n : Nat) (t : Text) :
    skip (List.replicate (n + 1) '[' ++ t) = '[' :: (List.replicate n '[' ++ t) := by
  rw [List.replicate_succ, List.cons_append, skip, List.dropWhile_cons_of_neg (by decide)]

/-- Each bracket takes one from the depth that is left, and the one too many is refused. -/
theorem Reader.value_of_deep {depth fuel : Nat} {limits : Limits} (hd : limits.depth = some depth)
    (hf : 2 * depth < fuel) (t : Text) :
    Reader.value limits fuel (List.replicate (depth + 1) '[' ++ t) = .error (.tooDeep .array) := by
  induction depth generalizing limits fuel with
  | zero =>
    obtain ⟨fuel, rfl⟩ : ∃ n, fuel = n + 1 := ⟨fuel - 1, by omega⟩
    have hinner : limits.inner? = none := by simp [Limits.inner?, hd]
    simp [Reader.value, hinner]
  | succ depth ih =>
    -- One of the fuel is for the array, and one for its items.
    obtain ⟨fuel, rfl⟩ : ∃ n, fuel = n + 2 := ⟨fuel - 2, by omega⟩
    have hinner : limits.inner? = some { limits with depth := some depth } := by
      simp [Limits.inner?, hd]
    have hfuel : 2 * depth < fuel := by omega
    have hdepth : ({ limits with depth := some depth } : Limits).depth = some depth := rfl
    have hitem := ih hdepth hfuel
    rw [List.replicate_succ, List.cons_append] at hitem
    have hitems : items { limits with depth := some depth } (fuel + 1)
        ('[' :: (List.replicate depth '[' ++ t)) = .error (.tooDeep .array) := by
      rw [items, hitem]
      rfl
    rw [List.replicate_succ, List.cons_append, value]
    simp only [hinner, skip_brackets]
    split
    · rename_i hclosed
      exact absurd (List.cons.inj hclosed).1 (by decide)
    · rw [hitems]
      rfl

theorem read_of_deep {depth : Nat} {limits : Limits} (hd : limits.depth = some depth) (t : Text) :
    Json.read limits (List.replicate (depth + 1) '[' ++ t) = .error (.tooDeep .array) := by
  have hfuel : 2 * depth < 2 * (List.replicate (depth + 1) '[' ++ t).length + 2 := by
    rw [List.length_append, List.length_replicate]
    omega
  have hvalue := Reader.value_of_deep hd hfuel t
  rw [List.replicate_succ, List.cons_append] at hvalue
  rw [Json.read, Reader.skip_brackets, List.replicate_succ, List.cons_append, hvalue]
  rfl

end Json

namespace Store

theorem fromUTF8?_toUTF8 (s : String) : String.fromUTF8? s.toUTF8 = some s := by
  have hvalid : s.toUTF8.IsValidUTF8 := s.isValidUTF8
  rw [String.fromUTF8?, dif_pos hvalid]
  rfl

theorem parse_of_deep (depth : Nat) (t : Text) :
    parse depth (String.ofList (List.replicate (depth + 1) '[' ++ t)).toUTF8
      = .error (.notJson (.tooDeep .array)) := by
  rw [parse, fromUTF8?_toUTF8]
  simp only [String.toList_ofList]
  rw [Json.read_of_deep rfl]

/-- As long as the file was not read, not even a key can be set. -/
theorem Shelf.set_of_deep {s : Shelf} (hs : s.store.data = none) {ds : Depths} {t : Text}
    (hread : s.disk.read s.store.path
      = .ok (String.ofList (List.replicate (ds.reading + 1) '[' ++ t)).toUTF8)
    (key : String) (v : Json) : s.set ds key v = (s, .error (.tooDeep .array)) := by
  have hensure : s.ensure ds.reading = .error (.tooDeep .array) := by
    simp only [ensure, hs, load, hread, parse_of_deep]
    rfl
  rw [set, hensure]

end Store
end ModalEditing
