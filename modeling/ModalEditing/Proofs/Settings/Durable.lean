import ModalEditing.Proofs.Settings.Saving

namespace ModalEditing
namespace Store

/-- The value can be written and read again where collections may be nested this deep: it is exact, and its
whole numbers are short enough. -/
def Storable (d : ℕ) (v : Json) : Prop := v.Exact ∧ v.Shaped d

/-- An object with these keys set one after the other. -/
def overlay (fields : Fields) (sets : List (String × Json)) : Fields :=
  Assoc.putAll fields (sets.map fun e => (Json.Str.ofString e.1, e.2))

def lastSet? (key : String) : List (String × Json) → Option Json
  | [] => none
  | (k, v) :: sets => (lastSet? key sets).or (if k = key then some v else none)

section
variable {d : ℕ} {fields : Fields} {sets : List (String × Json)} {key : String} {v : Json}

theorem overlay_append (fields : Fields) (sets : List (String × Json)) (key : String) (v : Json) :
    overlay fields (sets ++ [(key, v)])
      = Assoc.put (Json.Str.ofString key) v (overlay fields sets) := by
  simp [overlay, Assoc.putAll]

theorem lastSet?_append (key k : String) (v : Json) (sets : List (String × Json)) :
    lastSet? key (sets ++ [(k, v)]) = if k = key then some v else lastSet? key sets := by
  induction sets with
  | nil => rfl
  | cons e sets ih =>
    rw [List.cons_append, lastSet?, lastSet?, ih]
    split <;> simp

theorem get?_overlay (key : String) (fields : Fields) (sets : List (String × Json)) :
    Assoc.get? (Json.Str.ofString key) (overlay fields sets)
      = (lastSet? key sets).or (Assoc.get? (Json.Str.ofString key) fields) := by
  induction sets using List.reverseRecOn with
  | nil => rfl
  | append_singleton sets e ih =>
    obtain ⟨k, v⟩ := e
    rw [overlay_append, lastSet?_append]
    by_cases hk : k = key
    · rw [hk, if_pos rfl, Assoc.get?_put_self]
      rfl
    · rw [if_neg hk, Assoc.get?_put_of_ne (fun h => hk (Json.Str.ofString_inj.mp h)), ih]

theorem exact_put (hfields : Json.Exact (.obj fields)) (key : String) (hv : v.Exact) :
    Json.Exact (.obj (Assoc.put (Json.Str.ofString key) v fields)) := by
  cases hfields with
  | obj hk hj =>
    refine .obj (fun f hf => ?_) (fun f hf => ?_)
    all_goals rcases Assoc.mem_put hf with rfl | hf
    · exact Json.Str.ofString_whole key
    · exact hk f hf
    · exact hv
    · exact hj f hf

theorem exact_overlay (hfields : Json.Exact (.obj fields)) (hsets : ∀ e ∈ sets, Storable d e.2) :
    Json.Exact (.obj (overlay fields sets)) := by
  induction sets using List.reverseRecOn with
  | nil => exact hfields
  | append_singleton sets e ih =>
    rw [overlay_append]
    exact exact_put (ih fun e he => hsets e (by simp [he])) e.1 (hsets e (by simp)).1

/-- The object takes one level of its own. -/
theorem shaped_overlay (hfields : Json.Shaped (d + 1) (.obj fields))
    (hsets : ∀ e ∈ sets, Storable d e.2) : Json.Shaped (d + 1) (.obj (overlay fields sets)) := by
  induction sets using List.reverseRecOn with
  | nil => exact hfields
  | append_singleton sets e ih =>
    rw [overlay_append]
    exact Json.Reader.shaped_put (ih fun e he => hsets e (by simp [he])) (hsets e (by simp)).2

end

namespace Shelf
variable {d : ℕ} {s₀ s s' : Shelf} {fields : Fields} {sets : List (String × Json)} {p : Path}

/-- A store after some calls, each with as much of the stack as there was, and the keys set by them.
Between the calls the disk may become any that has the same file. -/
inductive Run (s₀ : Shelf) : List (String × Json) → Shelf → Prop
  | start : Run s₀ [] s₀
  | get {sets s s' depth key default v} (h : Run s₀ sets s)
    (hget : s.get depth key default = .ok (s', v)) : Run s₀ sets s'
  | set {sets s s' ds key v saved} (h : Run s₀ sets s) (hset : s.set ds key v = (s', .ok saved)) :
    Run s₀ (sets ++ [(key, v)]) s'
  | save {sets s s' ds saved} (h : Run s₀ sets s) (hsave : s.save ds = (s', .ok saved)) : Run s₀ sets s'
  | elsewhere {sets s disk} (h : Run s₀ sets s)
    (hdisk : disk.content? s.store.path = s.disk.content? s.store.path) :
    Run s₀ sets { s with disk := disk }

/-- The store holds the object with the keys set, or will read it where it can go this deep. -/
structure Faithful (d : ℕ) (p : Path) (fields : Fields) (s : Shelf) : Prop where
  path : s.store.path = p
  object : s.object d = .ok fields

/-- Whatever a call finds is the object, however deep that call could go. -/
theorem Faithful.ensured (h : Faithful d p fields s) {depth : ℕ} (hensure : s.ensure depth = .ok s') :
    ∃ ws, s' = s.holding fields ws := by
  rcases s.ensure_cases depth with ⟨e, -, he⟩ | ⟨fields', ws, hobject, hholding⟩
  · rw [hensure] at he
    cases he
  · obtain rfl := object_unique h.object hobject
    exact ⟨ws, Except.ok.inj (hensure.symm.trans hholding)⟩

theorem Faithful.ensure (h : Faithful d p fields s) {depth : ℕ} (hd : d ≤ depth) :
    ∃ ws, s.ensure depth = .ok (s.holding fields ws) := ensure_of_object (object_deeper h.object hd)

theorem object_of_data (h : s.store.data = some fields) : s.object d = .ok fields := by
  rw [object, h]

theorem Faithful.writeOut (hpath : s.store.path = p) (fields : Fields) (ws : List Warning) (depth : ℕ) :
    Faithful d p fields ((s.holding fields ws).writeOut depth).1 := by
  have hstore := writeOut_store (s.holding fields ws) depth
  refine ⟨hstore ▸ hpath, object_of_data ?_⟩
  rw [hstore]
  rfl

/-- Every call keeps to what was set, and so does whatever leaves the file alone. -/
theorem Run.faithful (h₀ : Faithful d p fields s₀) (h : Run s₀ sets s) :
    Faithful d p (overlay fields sets) s := by
  induction h with
  | start => exact h₀
  | @get sets s s' depth key default v _ hget ih =>
    obtain ⟨s₁, hensure, hs⟩ := Json.Reader.map_eq_ok hget
    obtain ⟨ws, rfl⟩ := ih.ensured hensure
    obtain ⟨rfl, -⟩ := Prod.mk.inj hs
    exact ⟨ih.path, rfl⟩
  | @set sets s s' ds key v saved _ hset ih =>
    rw [Shelf.set] at hset
    split at hset
    · cases (Prod.mk.inj hset).2
    · rename_i s₁ hensure
      obtain ⟨ws, rfl⟩ := ih.ensured hensure
      obtain rfl : _ = s' := congrArg Prod.fst hset
      rw [overlay_append]
      exact .writeOut ih.path _ ws ds.writing
  | @save sets s s' ds saved _ hsave ih =>
    rw [Shelf.save] at hsave
    split at hsave
    · cases (Prod.mk.inj hsave).2
    · rename_i s₁ hensure
      obtain ⟨ws, rfl⟩ := ih.ensured hensure
      obtain rfl : _ = s' := congrArg Prod.fst hsave
      exact .writeOut ih.path _ ws ds.writing
  | @elsewhere sets s disk _ hdisk ih =>
    refine ⟨ih.path, ?_⟩
    have hobject := ih.object
    rw [object] at hobject ⊢
    dsimp only
    rw [hdisk]
    exact hobject

/-- Let the path be one that can be written as such (a `Path` holds no half of a surrogate pair to begin
with, so only a null character stands against it), the file be nested at most one deeper than `d` when
first read, and the values set at most `d` deep. Then each call that can go deeper than `d` returns. A key
is answered with the value set last, or else with the file's; a save that is reported as failed leaves the
file alone; and one that goes through writes the object with all keys set so far, for a store opened anew
to load. -/
theorem durable (hunread : s₀.store.data = none) (hpath : ¬ s₀.store.path.HasNull)
    (htaken : taken (d + 1) (s₀.disk.content? s₀.store.path) = .ok fields)
    (hfields : Json.Exact (.obj fields)) (hsets : ∀ e ∈ sets, Storable d e.2) (hrun : Run s₀ sets s) :
    (∀ depth, d < depth → ∀ key default, ∃ s', s.get depth key default = .ok (s',
      ((lastSet? key sets).or (Assoc.get? (Json.Str.ofString key) fields)).getD default)) ∧
    ∀ ds : Depths, d < ds.reading → d < ds.writing →
      s.Saves (d + 1) (overlay fields sets) (s.save ds) ∧
      ∀ key v, Storable d v → s.Saves (d + 1) (overlay fields (sets ++ [(key, v)])) (s.set ds key v) := by
  have hstart : Faithful (d + 1) s₀.store.path fields s₀ := ⟨rfl, by rw [object, hunread, htaken]⟩
  have hfaithful := hrun.faithful hstart
  have hsave (sets : List (String × Json)) (hsets : ∀ e ∈ sets, Storable d e.2) (ws : List Warning)
      {depth : ℕ} (hd : d < depth) :
      s.Saves (d + 1) (overlay fields sets) ((s.holding (overlay fields sets) ws).writeOut depth) := by
    have hpath' : ¬ (s.holding (overlay fields sets) ws).store.path.HasNull := by
      show ¬ s.store.path.HasNull
      rw [hfaithful.path]
      exact hpath
    exact writeOut_saves hpath' (exact_overlay hfields hsets)
      (shaped_overlay (taken_shaped htaken) hsets) hd
  -- What is held is the overlay of all sets so far, whatever became of their saves.
  refine ⟨fun depth hd key default => ?_, fun ds hreading hwriting => ⟨?_, fun key v hv => ?_⟩⟩
  · obtain ⟨ws, hensure⟩ := hfaithful.ensure hd
    refine ⟨s.holding (overlay fields sets) ws, ?_⟩
    rw [Shelf.get, hensure, ← get?_overlay]
    rfl
  · obtain ⟨ws, hensure⟩ := hfaithful.ensure hreading
    rw [Shelf.save, hensure]
    exact hsave sets hsets ws hwriting
  · obtain ⟨ws, hensure⟩ := hfaithful.ensure hreading
    have hset : s.set ds key v
        = (s.holding (overlay fields (sets ++ [(key, v)])) ws).writeOut ds.writing := by
      rw [Shelf.set, hensure, overlay_append]
      rfl
    rw [hset]
    refine hsave _ (fun e he => ?_) ws hwriting
    rcases List.mem_append.mp he with he | he
    · exact hsets e he
    · obtain rfl := List.mem_singleton.mp he
      exact hv

def onSealed : Shelf := { store := { path := ⟨"", ["settings.json"]⟩ }, disk := { isSealed := true } }

/-- A key whose save failed is in the file once another save goes through. -/
theorem durable_after_failed_save : ∃ s, Run onSealed [("a", .null)] s ∧
    (∃ s', s.get 1 "a" (.bool true) = .ok (s', .null)) ∧ (s.save ⟨1, 1⟩).2 = .ok true ∧
    Loads (s.save ⟨1, 1⟩).1.disk 1 s.store.path [(Json.Str.ofString "a", .null)] := by
  let set : Shelf := onSealed.keep [(Json.Str.ofString "a", .null)]
  let unsealed : Shelf := { (set.failing .isSealed).1 with disk := {} }
  have htaken : taken (0 + 1) (onSealed.disk.content? onSealed.store.path) = .ok [] := rfl
  have hsets : ∀ e ∈ [("a", Json.null)], Storable 0 e.2 := by
    intro e he
    obtain rfl := List.mem_singleton.mp he
    exact ⟨.null, trivial⟩
  obtain ⟨bytes, hcontent, -⟩ := parse_content (exact_overlay Json.exact_empty hsets)
    (shaped_overlay (taken_shaped htaken) hsets)
  have hrefused : Disk.write { isSealed := true } ⟨"", ["settings.json"]⟩ bytes
      = .error .isSealed := rfl
  have hwritten : Disk.write {} ⟨"", ["settings.json"]⟩ bytes
      = .ok { entries := [(["settings.json"], .file bytes)] } := rfl
  have hset : onSealed.set ⟨1, 1⟩ "a" .null = ((set.failing .isSealed).1, .ok false) := by
    have hwrite : set.writeOut 1 = set.failing .isSealed :=
      writeOut_unwritten (by decide) (hcontent 1 (Nat.le_refl 1)) hrefused
    show set.writeOut 1 = _
    rw [hwrite]
    rfl
  have hrun : Run onSealed [("a", .null)] unsealed := (Run.set .start hset).elsewhere rfl
  have hsaved : (unsealed.save ⟨1, 1⟩).2 = .ok true := by
    have hwrite : unsealed.writeOut 1
        = ({ unsealed with disk := { entries := [(["settings.json"], .file bytes)] } }, .ok true) :=
      writeOut_written (by decide) (hcontent 1 (Nat.le_refl 1)) hwritten
    show (unsealed.writeOut 1).2 = _
    rw [hwrite]
  obtain ⟨hget, hsave⟩ := durable rfl (by decide) htaken Json.exact_empty hsets hrun
  obtain ⟨hsave, -⟩ := hsave ⟨1, 1⟩ Nat.one_pos Nat.one_pos
  refine ⟨_, hrun, hget 1 Nat.one_pos "a" (.bool true), hsaved, ?_⟩
  rcases hsave with ⟨hfalse, -⟩ | ⟨-, hloads⟩
  · rw [hsaved] at hfalse
    cases hfalse
  · have horder : Json.inOrder (overlay [] [("a", .null)]) = [(Json.Str.ofString "a", .null)] := by
      simp [overlay, Assoc.putAll, Assoc.put, Json.inOrder, Json.orderedFields, Json.ordered]
    exact horder ▸ hloads 1 (Nat.le_refl 1)

def onFile (bytes : ByteArray) : Shelf :=
  { store := { path := ⟨"", ["settings.json"]⟩ },
    disk := { entries := [(["settings.json"], .file bytes)] } }

theorem onFile_read (bytes : ByteArray) :
    (onFile bytes).disk.read (onFile bytes).store.path = .ok bytes := by
  have hlocate : (onFile bytes).disk.locate ⟨"", ["settings.json"]⟩ = .ok ["settings.json"] :=
    Disk.locate_eq_ok.mpr ⟨by decide, by decide, rfl⟩
  show (onFile bytes).disk.read ⟨"", ["settings.json"]⟩ = _
  rw [Disk.read, hlocate]
  rfl

/-- A file of brackets does not count as empty: no call that can go less deep than they do is even told
whether a key is there. -/
theorem get_refused_of_brackets : ∃ bytes, (onFile bytes).store.data = none ∧
    ¬ (onFile bytes).store.path.HasNull ∧
    bytes = (String.ofList (List.replicate 3000 '[')).toUTF8 ∧
    ∀ depth < 3000, (onFile bytes).get depth "a" = .error (.tooDeep .array) := by
  have hnull : ¬ Path.HasNull ⟨"", ["settings.json"]⟩ := by decide
  refine ⟨_, rfl, hnull, rfl, fun depth hd => get_refused ?_ "a" .null⟩
  generalize hbytes : (String.ofList (List.replicate 3000 '[')).toUTF8 = bytes
  have hcontent : (onFile bytes).disk.content? (onFile bytes).store.path = some bytes := by
    rw [Disk.content?, onFile_read]
    rfl
  have hdeep : List.replicate 3000 '['
      = List.replicate (depth + 1) '[' ++ List.replicate (3000 - (depth + 1)) '[' := by
    rw [List.replicate_append_replicate, Nat.add_sub_of_le hd]
  show taken depth ((onFile bytes).disk.content? (onFile bytes).store.path) = _
  rw [hcontent, taken, ← hbytes, hdeep, parse_of_deep]

end Shelf
end Store
end ModalEditing
