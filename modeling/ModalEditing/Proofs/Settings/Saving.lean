import ModalEditing.Proofs.Json.Deeper
import ModalEditing.Proofs.Settings.Disk
import ModalEditing.Proofs.Settings.Nesting

namespace ModalEditing

namespace Json

theorem ofChar_whole (c : Char) : ¬ IsHalf (CodePoint.ofChar c) := by
  have hval : (CodePoint.ofChar c).val = c.toNat := rfl
  have hvalid : c.toNat < 0xD800 ∨ 0xDFFF < c.toNat ∧ c.toNat < 0x110000 := c.valid
  rw [IsHalf, hval]
  omega

theorem Str.ofString_whole (s : String) : (Str.ofString s).Whole := by
  intro n hn
  obtain ⟨c, -, rfl⟩ := List.mem_map.mp hn
  exact ofChar_whole c

theorem Str.ofString_inj {s t : String} : Str.ofString s = Str.ofString t ↔ s = t := by
  have hinj : Function.Injective CodePoint.ofChar := by
    intro c d h
    have hval : (CodePoint.ofChar c).val = (CodePoint.ofChar d).val := by rw [h]
    exact Char.toNat_inj.mp hval
  rw [Str.ofString, Str.ofString, hinj.list_map.eq_iff, String.toList_inj]

end Json

namespace Store
variable {d depth : ℕ} {fields : Fields} {bytes : ByteArray}

/-- What is read from a file is fit to be written to one again. -/
theorem parse_shaped (h : parse (d + 1) bytes = .ok fields) : Json.Shaped (d + 1) (.obj fields) := by
  rw [parse] at h
  split at h
  · cases h
  · split at h
    · cases h
    · rename_i hread
      obtain rfl := Except.ok.inj h
      exact Json.read_shaped hread
    · obtain rfl := Except.ok.inj h
      exact Json.shaped_empty

/-- An exact object is read back from the file that it is written to, wherever it can be written. -/
theorem parse_content (hexact : Json.Exact (.obj fields)) (hshaped : Json.Shaped d (.obj fields)) :
    ∃ bytes, (∀ depth, d ≤ depth → Shelf.content depth fields = .ok bytes) ∧
      ∀ depth, d ≤ depth → parse depth bytes = .ok (Json.inOrder fields) := by
  have hordered := hshaped.ordered
  refine ⟨(String.ofList (Json.text .block 0 (Json.ordered (.obj fields)) [] ++ ['\n'])).toUTF8, ?_, ?_⟩
  · intro depth hd
    rw [Shelf.content, Json.writeWithin, Json.obstacle?_of_shaped (hordered.deeper hd)]
    rfl
  · intro depth hd
    have hread : Json.read (.within depth) (Json.text .block 0 (Json.ordered (.obj fields)) ['\n'])
        = .ok (.obj (Json.inOrder fields)) := by
      rw [← Json.ordered_obj]
      exact Json.read_text hexact.ordered (hordered.deeper hd) (List.forall_mem_singleton.mpr rfl)
    rw [parse, fromUTF8?_toUTF8]
    dsimp only
    rw [String.toList_ofList, ← Json.text_append, List.nil_append, hread]

def taken (depth : ℕ) : Option ByteArray → Except Failure Fields
  | none => .ok []
  | some bytes => match parse depth bytes with
    | .ok fields => .ok fields
    | .error (.notJson (.tooDeep c)) => .error (.tooDeep c)
    | .error _ => .ok []

/-- What is not nested too deep for one call is taken alike by each that can go deeper. -/
theorem taken_deeper {content : Option ByteArray} (h : taken d content = .ok fields)
    (hd : d ≤ depth) : taken depth content = .ok fields := by
  cases content with
  | none => exact h
  | some bytes =>
    have hparse : parse depth bytes = parse d bytes := by
      rw [parse, parse]
      cases hs : String.fromUTF8? bytes with
      | none => rfl
      | some s =>
        have hsettled : Json.Reader.Settled (Json.read (.within d) s.toList) := by
          intro c hc
          simp only [taken, parse, hs, hc] at h
          cases h
        dsimp only
        rw [Json.read_deeper hd hsettled]
    rw [taken, hparse, ← h, taken]

theorem taken_shaped {content : Option ByteArray} (h : taken (d + 1) content = .ok fields) :
    Json.Shaped (d + 1) (.obj fields) := by
  rw [taken.eq_def] at h
  split at h
  · obtain rfl := Except.ok.inj h
    exact Json.shaped_empty
  · split at h
    · rename_i hparse
      obtain rfl := Except.ok.inj h
      exact parse_shaped hparse
    · cases h
    · obtain rfl := Except.ok.inj h
      exact Json.shaped_empty

namespace Shelf
variable {s : Shelf}

/-- The object that the store holds, or else will read from its file. -/
def object (s : Shelf) (depth : ℕ) : Except Failure Fields :=
  match s.store.data with
  | some fields => .ok fields
  | none => taken depth (s.disk.content? s.store.path)

theorem object_deeper (h : s.object d = .ok fields) (hd : d ≤ depth) :
    s.object depth = .ok fields := by
  rw [object] at h ⊢
  cases hdata : s.store.data with
  | none =>
    rw [hdata] at h
    exact taken_deeper h hd
  | some held =>
    rw [hdata] at h
    exact h

theorem object_unique {fields' : Fields} (h : s.object d = .ok fields)
    (h' : s.object depth = .ok fields') : fields = fields' := by
  have hl := object_deeper h (Nat.le_max_left d depth)
  have hr := object_deeper h' (Nat.le_max_right d depth)
  exact Except.ok.inj (hl.symm.trans hr)

def holding (s : Shelf) (fields : Fields) (ws : List Warning) : Shelf :=
  { s with warnings := s.warnings ++ ws }.keep fields

theorem holding_self (h : s.store.data = some fields) : s.holding fields [] = s := by
  obtain ⟨⟨path, data⟩, disk, warnings⟩ := s
  obtain rfl : data = some fields := h
  rw [holding, List.append_nil]
  rfl

theorem holding_nil (s : Shelf) (fields : Fields) : s.keep fields = s.holding fields [] := by
  rw [holding, List.append_nil]

theorem load_cases (s : Shelf) (depth : ℕ) :
    (∃ e, taken depth (s.disk.content? s.store.path) = .error e ∧ s.load depth = .error e) ∨
      ∃ fields ws, taken depth (s.disk.content? s.store.path) = .ok fields ∧
        s.load depth = .ok (s.holding fields ws) := by
  rw [load, Disk.content?]
  split
  · rename_i hread
    rw [hread]
    exact .inr ⟨[], [], rfl, congrArg _ (holding_nil s [])⟩
  · rename_i e _ hread
    rw [hread]
    exact .inr ⟨[], [_], rfl, rfl⟩
  · rename_i bytes hread
    rw [hread, Except.toOption, taken]
    generalize parse depth bytes = r
    obtain (_ | _ | c) | fields := r
    · exact .inr ⟨[], [_], rfl, rfl⟩
    · exact .inr ⟨[], [_], rfl, rfl⟩
    · exact .inl ⟨.tooDeep c, rfl, rfl⟩
    · exact .inr ⟨fields, [], rfl, congrArg _ (holding_nil s fields)⟩

theorem ensure_cases (s : Shelf) (depth : ℕ) :
    (∃ e, s.object depth = .error e ∧ s.ensure depth = .error e) ∨
      ∃ fields ws, s.object depth = .ok fields ∧ s.ensure depth = .ok (s.holding fields ws) := by
  rw [object, ensure]
  cases hdata : s.store.data with
  | none => exact load_cases s depth
  | some fields => exact .inr ⟨fields, [], rfl, congrArg _ (holding_self hdata).symm⟩

theorem ensure_of_object (h : s.object depth = .ok fields) :
    ∃ ws, s.ensure depth = .ok (s.holding fields ws) := by
  rcases s.ensure_cases depth with ⟨e, he, -⟩ | ⟨fields', ws, hfields, hensure⟩
  · rw [h] at he
    cases he
  · obtain rfl := Except.ok.inj (h.symm.trans hfields)
    exact ⟨ws, hensure⟩

/-- Where the file is nested too deep, every call that needs the object is refused. -/
theorem ensure_refused {e : Failure} (h : s.object depth = .error e) : s.ensure depth = .error e := by
  rcases s.ensure_cases depth with ⟨e', he, hensure⟩ | ⟨fields, ws, hfields, -⟩
  · obtain rfl := Except.error.inj (he.symm.trans h)
    exact hensure
  · rw [hfields] at h
    cases h

theorem get_refused {e : Failure} (h : s.object depth = .error e) (key : String) (default : Json) :
    s.get depth key default = .error e := by
  rw [get, ensure_refused h]
  rfl

/-- A store opened anew on this path loads this object without a warning. -/
def Loads (disk : Disk) (depth : ℕ) (p : Path) (fields : Fields) : Prop :=
  load { store := { path := p }, disk := disk } depth
    = .ok { store := { path := p, data := some fields }, disk := disk }

theorem loads_of_read {disk : Disk} {p : Path} (hread : disk.read p = .ok bytes)
    (hparse : parse depth bytes = .ok fields) : Loads disk depth p fields := by
  simp only [Loads, load, hread, hparse]
  rfl

def failing (s : Shelf) (e : Disk.Failure) : Shelf × Except Failure Bool :=
  if e = .nullCharacter then (s, .error .nullCharacter)
  else (s.warn (.saveFailed s.store.path e.message), .ok false)

def prepared (s : Shelf) : Shelf := { s with disk := (s.disk.prepared s.store.path).1 }

theorem prepared_of_isDir (h : s.disk.isDir s.store.path.parent = true) : s.prepared = s := by
  rw [prepared, Disk.prepared_of_isDir h]

section Writing
variable {e : Disk.Failure}

theorem writeOut_unprepared (h : (s.disk.prepared s.store.path).2 = some e) :
    s.writeOut depth = s.prepared.failing e := by
  rw [writeOut, prepared]
  rw [Disk.prepared] at h ⊢
  split
  · rename_i hmake
    rw [hmake] at h ⊢
    obtain rfl := Option.some.inj h
    rfl
  · rename_i hmake
    rw [hmake] at h
    cases h

/-- Once the directory is made, the object is written if it can be. -/
theorem writeOut_prepared (h : (s.disk.prepared s.store.path).2 = none) : s.writeOut depth =
    match content depth s.fields with
    | .error e => (s.prepared, .error (.unwritable e))
    | .ok bytes => match s.prepared.disk.write s.store.path bytes with
      | .error e => s.prepared.failing e
      | .ok d => ({ s with disk := d }, .ok true) := by
  rw [writeOut, prepared]
  rw [Disk.prepared] at h ⊢
  split
  · rename_i hmake
    rw [hmake] at h
    cases h
  · rename_i hmake
    rw [hmake]
    rfl

theorem writeOut_unwritten (hdir : s.disk.isDir s.store.path.parent = true)
    (hcontent : content depth s.fields = .ok bytes) (hwrite : s.disk.write s.store.path bytes = .error e) :
    s.writeOut depth = s.failing e := by
  rw [writeOut_prepared (by rw [Disk.prepared_of_isDir hdir]), prepared_of_isDir hdir, hcontent]
  simp only [hwrite]

theorem writeOut_written {d : Disk} (hdir : s.disk.isDir s.store.path.parent = true)
    (hcontent : content depth s.fields = .ok bytes) (hwrite : s.disk.write s.store.path bytes = .ok d) :
    s.writeOut depth = ({ s with disk := d }, .ok true) := by
  rw [writeOut_prepared (by rw [Disk.prepared_of_isDir hdir]), prepared_of_isDir hdir, hcontent]
  simp only [hwrite]

theorem failing_cases (s : Shelf) (e : Disk.Failure) :
    (e = .nullCharacter ∧ s.failing e = (s, .error .nullCharacter)) ∨
      (e ≠ .nullCharacter ∧
        s.failing e = (s.warn (.saveFailed s.store.path e.message), .ok false)) := by
  rw [failing]
  split
  · exact .inl ⟨by assumption, rfl⟩
  · exact .inr ⟨by assumption, rfl⟩

theorem writeOut_store (s : Shelf) (depth : ℕ) : (s.writeOut depth).1.store = s.store := by
  have hfailing (s : Shelf) (e : Disk.Failure) : (s.failing e).1.store = s.store := by
    rcases s.failing_cases e with ⟨-, h⟩ | ⟨-, h⟩
    · rw [h]
    · rw [h]
      rfl
  cases h : (s.disk.prepared s.store.path).2 with
  | some e =>
    rw [writeOut_unprepared h, hfailing]
    rfl
  | none =>
    rw [writeOut_prepared h]
    split
    · rfl
    · split
      · rw [hfailing]
        rfl
      · rfl

/-- The save was reported as failed, with a warning, and left the file as it was. -/
def Unsaved (s : Shelf) (r : Shelf × Except Failure Bool) : Prop :=
  r.2 = .ok false ∧ r.1.disk.content? s.store.path = s.disk.content? s.store.path ∧
    ∃ why, .saveFailed s.store.path why ∈ r.1.warnings

/-- An object is written, or the save is reported as failed, or it is refused. -/
theorem writeOut_cases (s : Shelf) (depth : ℕ) : (∃ e, (s.writeOut depth).2 = .error e) ∨ s.Unsaved (s.writeOut depth) ∨
    ((s.writeOut depth).2 = .ok true ∧ ∃ bytes, content depth s.fields = .ok bytes ∧
      (s.writeOut depth).1.disk.read s.store.path = .ok bytes) := by
  have hfailing (e : Disk.Failure)
      (hcontent : s.prepared.disk.content? s.store.path = s.disk.content? s.store.path) :
      (∃ f, (s.prepared.failing e).2 = .error f) ∨ s.Unsaved (s.prepared.failing e) := by
    rcases s.prepared.failing_cases e with ⟨-, h⟩ | ⟨-, h⟩
    · exact .inl ⟨.nullCharacter, by rw [h]⟩
    · rw [h]
      exact .inr ⟨rfl, hcontent, e.message, List.mem_append_right _ (List.mem_singleton.mpr rfl)⟩
  cases h : (s.disk.prepared s.store.path).2 with
  | some e =>
    rw [writeOut_unprepared h]
    rcases hfailing e (Disk.content?_of_unprepared (by simp [h])) with hr | hu
    · exact .inl hr
    · exact .inr (.inl hu)
  | none =>
    rw [writeOut_prepared h]
    split
    · exact .inl ⟨_, rfl⟩
    · rename_i bytes hcontent
      split
      · rename_i e hwrite
        have hext := Disk.prepared_extends s.disk s.store.path
        rcases hfailing e (Disk.content?_of_unwritten hext hwrite) with hr | hu
        · exact .inl hr
        · exact .inr (.inl hu)
      · rename_i d hwrite
        exact .inr (.inr ⟨rfl, bytes, hcontent, Disk.read_write hwrite⟩)

def refusal? {α : Type} : Except Failure α → Option Failure
  | .error e => some e
  | .ok _ => none

/-- The directory of the file can be made, or is there. -/
def Ready (s : Shelf) : Prop := (s.disk.prepared s.store.path).2 = none

def obstacle? (depth : ℕ) (fields : Fields) : Option Json.WriteError :=
  Json.obstacle? depth (Json.ordered (.obj fields))

theorem content_of_obstacle {e : Json.WriteError} (h : obstacle? depth fields = some e) :
    content depth fields = .error e := by
  rw [obstacle?] at h
  rw [content, Json.writeWithin, h]
  rfl

theorem content_of_none (h : obstacle? depth fields = none) : ∃ bytes, content depth fields = .ok bytes := by
  rw [obstacle?] at h
  rw [content, Json.writeWithin, h]
  exact ⟨_, rfl⟩

theorem failing_refusal (s : Shelf) (e : Disk.Failure) :
    refusal? (s.failing e).2 = if e = .nullCharacter then some .nullCharacter else none := by
  rcases s.failing_cases e with ⟨he, h⟩ | ⟨he, h⟩
  · rw [h, if_pos he]
    rfl
  · rw [h, if_neg he]
    rfl

/-- Why the object that is held is refused when written. -/
theorem writeOut_refusal (s : Shelf) (depth : ℕ) (e : Failure) : refusal? (s.writeOut depth).2 = some e ↔
    (e = .nullCharacter ∧ s.store.path.parent.HasNull) ∨
    (∃ w, s.Ready ∧ obstacle? depth s.fields = some w ∧ e = .unwritable w) ∨
    (s.Ready ∧ obstacle? depth s.fields = none ∧ s.store.path.HasNull ∧ e = .nullCharacter) := by
  have hnull := Disk.prepared_null (d := s.disk) (p := s.store.path)
  rw [Ready]
  -- A null character in the path of the directory is noticed first, one in the name only on writing.
  cases hready : (s.disk.prepared s.store.path).2 with
  | some x =>
    rw [hready] at hnull
    rw [writeOut_unprepared hready, failing_refusal, ← hnull]
    simp [eq_comm, and_comm]
  | none =>
    have hparent : ¬ s.store.path.parent.HasNull := by
      rw [← hnull, hready]
      simp
    rw [writeOut_prepared hready]
    cases ho : obstacle? depth s.fields with
    | some w =>
      rw [content_of_obstacle ho]
      simp [refusal?, hparent, eq_comm]
    | none =>
      obtain ⟨bytes, hcontent⟩ := content_of_none ho
      rw [hcontent]
      have hpath : s.prepared.disk.write s.store.path bytes = .error .nullCharacter
          ↔ s.store.path.HasNull := Disk.write_null
      cases hwrite : s.prepared.disk.write s.store.path bytes with
      | error x =>
        rw [hwrite, Except.error.injEq] at hpath
        simp only [hwrite]
        rw [failing_refusal, ← hpath]
        simp [hparent, eq_comm, and_comm]
      | ok d =>
        have hnull : ¬ s.store.path.HasNull := by
          rw [← hpath, hwrite]
          simp
        simp [hwrite, refusal?, hparent, hnull]

/-- The save was reported as failed and left the file as it was, or each store opened anew that can go
this deep loads the object, its keys in order. -/
def Saves (s : Shelf) (d : ℕ) (fields : Fields) (r : Shelf × Except Failure Bool) : Prop :=
  (r.2 = .ok false ∧ r.1.disk.content? s.store.path = s.disk.content? s.store.path) ∨
    (r.2 = .ok true ∧ ∀ depth, d ≤ depth → Loads r.1.disk depth s.store.path (Json.inOrder fields))

section
variable {disk : Disk} {p : Path} {writing : ℕ}

theorem content_unique {bytes' : ByteArray} (h : content d fields = .ok bytes)
    (h' : content depth fields = .ok bytes') : bytes = bytes' := by
  rw [content, Json.writeWithin] at h h'
  split at h
  · cases h
  · split at h'
    · cases h'
    · exact Except.ok.inj (h.symm.trans h')

/-- Whichever call wrote an exact object, it is read back where collections may be nested this deep. -/
theorem parse_saved (hexact : Json.Exact (.obj fields)) (hshaped : Json.Shaped d (.obj fields))
    (hcontent : content writing fields = .ok bytes) (hd : d ≤ depth) :
    parse depth bytes = .ok (Json.inOrder fields) := by
  obtain ⟨bytes', hcontent', hparse⟩ := parse_content hexact hshaped
  obtain rfl := content_unique hcontent (hcontent' d (Nat.le_refl d))
  exact hparse depth hd

theorem taken_of_saved (hparse : parse depth bytes = .ok fields) (hread : disk.read p = .ok bytes) :
    taken depth (disk.content? p) = .ok fields := by
  rw [Disk.content?, hread]
  show taken depth (some bytes) = _
  rw [taken, hparse]

end

theorem writeOut_saves (hpath : ¬ s.store.path.HasNull) (hexact : Json.Exact (.obj s.fields))
    (hshaped : Json.Shaped d (.obj s.fields)) (hd : d ≤ depth) :
    s.Saves d s.fields (s.writeOut depth) := by
  rcases s.writeOut_cases depth with ⟨e, he⟩ | ⟨hfalse, hcontent, -⟩ | ⟨htrue, bytes, hcontent, hread⟩
  · have hrefused := (writeOut_refusal s depth e).mp (by rw [he]; rfl)
    have hnone : obstacle? depth s.fields = none :=
      Json.obstacle?_of_shaped (hshaped.ordered.deeper hd)
    rcases hrefused with ⟨-, hnull⟩ | ⟨w, -, hw, -⟩ | ⟨-, -, hnull, -⟩
    · exact absurd hnull.of_parent hpath
    · rw [hnone] at hw
      cases hw
    · exact absurd hnull hpath
  · exact .inl ⟨hfalse, hcontent⟩
  · exact .inr ⟨htrue, fun r hr => loads_of_read hread (parse_saved hexact hshaped hcontent hr)⟩

end Writing

end Shelf
end Store
end ModalEditing
