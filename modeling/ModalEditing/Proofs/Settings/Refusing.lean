import ModalEditing.Proofs.Settings.Saving

namespace ModalEditing
namespace Store

inductive Call
  | load
  | get (key : String) (default : Json)
  | set (key : String) (value : Json)
  | save

def Call.Writes : Call → Prop
  | .set _ _ | .save => True
  | _ => False

/-- The call leaves the value at this key in the object that is held. -/
def Call.Spares (key : String) : Call → Prop
  | .load => False
  | .set k _ => k ≠ key
  | _ => True

theorem taken_eq_error {depth : ℕ} {content : Option ByteArray} {e : Failure} :
    taken depth content = .error e ↔ ∃ bytes c, content = some bytes ∧
      parse depth bytes = .error (.notJson (.tooDeep c)) ∧ e = .tooDeep c := by
  cases content with
  | none => simp [taken]
  | some bytes =>
    rw [taken]
    simp only [Option.some.injEq, existsAndEq, true_and]
    generalize parse depth bytes = r
    obtain (_ | _ | c) | fields := r <;> simp [eq_comm]

namespace Shelf
variable {s : Shelf} {ds : Depths} {fields : Fields}

def call (s : Shelf) (ds : Depths) : Call → Shelf × Option Failure
  | .load => ((s.load ds.reading).toOption.getD s, refusal? (s.load ds.reading))
  | .get key default =>
    (((s.get ds.reading key default).map Prod.fst).toOption.getD s,
      refusal? (s.get ds.reading key default))
  | .set key v => ((s.set ds key v).1, refusal? (s.set ds key v).2)
  | .save => ((s.save ds).1, refusal? (s.save ds).2)

def wanted (s : Shelf) (depth : ℕ) : Call → Except Failure Fields
  | .load => taken depth (s.disk.content? s.store.path)
  | .set key v => (s.object depth).map (Assoc.put (Json.Str.ofString key) v)
  | _ => s.object depth

/-- Why a call is refused: the file has yet to be read and is nested too deep, there is a null character
in the path of the directory, the object cannot be written, or there is a null character in the path. -/
inductive Refused (s : Shelf) (ds : Depths) (c : Call) : Failure → Prop
  | deep {bytes : ByteArray} {d : Json.Collection} (hunread : c = .load ∨ s.store.data = none)
    (hfile : s.disk.content? s.store.path = some bytes)
    (hdeep : parse ds.reading bytes = .error (.notJson (.tooDeep d))) : Refused s ds c (.tooDeep d)
  | parent {fields : Fields} (hw : c.Writes) (hfields : s.wanted ds.reading c = .ok fields)
    (hnull : s.store.path.parent.HasNull) : Refused s ds c .nullCharacter
  | object {fields : Fields} {e : Json.WriteError} (hw : c.Writes)
    (hfields : s.wanted ds.reading c = .ok fields) (hready : s.Ready)
    (hobstacle : obstacle? ds.writing fields = some e) : Refused s ds c (.unwritable e)
  | path {fields : Fields} (hw : c.Writes) (hfields : s.wanted ds.reading c = .ok fields)
    (hready : s.Ready) (hnone : obstacle? ds.writing fields = none) (hnull : s.store.path.HasNull) :
    Refused s ds c .nullCharacter

theorem object_eq_error {depth : ℕ} {e : Failure} : s.object depth = .error e ↔
    s.store.data = none ∧ taken depth (s.disk.content? s.store.path) = .error e := by
  rw [object]
  cases s.store.data <;> simp

/-- A call has no object only where the file has yet to be read and is nested too deep. -/
theorem wanted_eq_error {depth : ℕ} {c : Call} {e : Failure} : s.wanted depth c = .error e ↔
    (c = .load ∨ s.store.data = none) ∧ taken depth (s.disk.content? s.store.path) = .error e := by
  cases c with
  | load => simp [wanted]
  | get key default => simp [wanted, object_eq_error]
  | set key v =>
    have hmap : s.wanted depth (.set key v) = .error e ↔ s.object depth = .error e := by
      rw [wanted]
      cases s.object depth <;> simp [Except.map]
    rw [hmap, object_eq_error]
    simp
  | save => simp [wanted, object_eq_error]

theorem refused_of_error {c : Call} {e : Failure} (h : s.wanted ds.reading c = .error e)
    (e' : Failure) : Refused s ds c e' ↔ e' = e := by
  obtain ⟨hunread, htaken⟩ := wanted_eq_error.mp h
  obtain ⟨bytes, d, hfile, hdeep, rfl⟩ := taken_eq_error.mp htaken
  refine ⟨fun hr => ?_, fun he => he ▸ .deep hunread hfile hdeep⟩
  cases hr with
  | @deep bytes' d' _ hfile' hdeep' =>
    obtain rfl := Option.some.inj (hfile.symm.trans hfile')
    rw [hdeep] at hdeep'
    injections hdeep'
    rename_i hd
    rw [hd]
  | parent _ hfields | object _ hfields | path _ hfields =>
    rw [h] at hfields
    cases hfields

theorem refused_of_ok {c : Call} (h : s.wanted ds.reading c = .ok fields) (e : Failure) :
    Refused s ds c e ↔ c.Writes ∧ ((e = .nullCharacter ∧ s.store.path.parent.HasNull) ∨
      (∃ w, s.Ready ∧ obstacle? ds.writing fields = some w ∧ e = .unwritable w) ∨
      (s.Ready ∧ obstacle? ds.writing fields = none ∧ s.store.path.HasNull ∧ e = .nullCharacter)) := by
  constructor
  · intro hr
    cases hr with
    | deep hunread hfile hdeep =>
      have htaken := taken_eq_error.mpr ⟨_, _, hfile, hdeep, rfl⟩
      rw [wanted_eq_error.mpr ⟨hunread, htaken⟩] at h
      cases h
    | parent hw _ hnull => exact ⟨hw, .inl ⟨rfl, hnull⟩⟩
    | object hw hfields hready ho =>
      obtain rfl := Except.ok.inj (hfields.symm.trans h)
      exact ⟨hw, .inr (.inl ⟨_, hready, ho, rfl⟩)⟩
    | path hw hfields hready ho hnull =>
      obtain rfl := Except.ok.inj (hfields.symm.trans h)
      exact ⟨hw, .inr (.inr ⟨hready, ho, hnull, rfl⟩)⟩
  · rintro ⟨hw, ⟨rfl, hnull⟩ | ⟨w, hready, ho, rfl⟩ | ⟨hready, ho, hnull, rfl⟩⟩
    · exact .parent hw h hnull
    · exact .object hw h hready ho
    · exact .path hw h hready ho hnull

/-- A call is refused for one of these reasons, and for no other. -/
theorem call_refusal (s : Shelf) (ds : Depths) (c : Call) (e : Failure) :
    (s.call ds c).2 = some e ↔ Refused s ds c e := by
  cases c with
  | load =>
    rcases s.load_cases ds.reading with ⟨e', he, hload⟩ | ⟨fields, ws, hfields, hload⟩
    · rw [refused_of_error (c := .load) he, call, hload]
      simp [refusal?, eq_comm]
    · rw [refused_of_ok (c := .load) hfields, call, hload]
      simp [refusal?, Call.Writes]
  | get key default =>
    rcases s.ensure_cases ds.reading with ⟨e', he, hensure⟩ | ⟨fields, ws, hfields, hensure⟩
    · rw [refused_of_error (c := .get key default) he, call, Shelf.get, hensure]
      simp [refusal?, Except.map, eq_comm]
    · rw [refused_of_ok (c := .get key default) hfields, call, Shelf.get, hensure]
      simp [refusal?, Except.map, Call.Writes]
  | set key v =>
    rcases s.ensure_cases ds.reading with ⟨e', he, hensure⟩ | ⟨fields, ws, hfields, hensure⟩
    · have hwanted : s.wanted ds.reading (.set key v) = .error e' := by
        rw [wanted, he]
        rfl
      rw [refused_of_error hwanted, call, Shelf.set, hensure]
      simp [refusal?, eq_comm]
    · have hwanted : s.wanted ds.reading (.set key v)
          = .ok (Assoc.put (Json.Str.ofString key) v fields) := by
        rw [wanted, hfields]
        rfl
      have hwrites : (Call.set key v).Writes := trivial
      rw [refused_of_ok hwanted, call, Shelf.set, hensure]
      exact (writeOut_refusal _ _ e).trans ⟨fun h => ⟨hwrites, h⟩, And.right⟩
  | save =>
    rcases s.ensure_cases ds.reading with ⟨e', he, hensure⟩ | ⟨fields, ws, hfields, hensure⟩
    · rw [refused_of_error (c := .save) he, call, Shelf.save, hensure]
      simp [refusal?, eq_comm]
    · have hwrites : Call.save.Writes := trivial
      rw [refused_of_ok (c := .save) hfields, call, Shelf.save, hensure]
      exact (writeOut_refusal _ _ e).trans ⟨fun h => ⟨hwrites, h⟩, And.right⟩

/-- The object that is held has this value at this key. -/
def Has (key : String) (v : Json) (s : Shelf) : Prop :=
  ∃ fields, s.store.data = some fields ∧ Assoc.get? (Json.Str.ofString key) fields = some v

/-- A value that cannot be written one level down is in the way of its object. -/
theorem obstacle?_of_value {depth : ℕ} {key : Json.Str} {v : Json}
    (hget : Assoc.get? key fields = some v) (hv : Json.obstacle? (depth - 1) v.ordered ≠ none) :
    obstacle? depth fields ≠ none := by
  have hmem : (key, v.ordered) ∈ Json.inOrder fields :=
    Json.mem_inOrder.mpr ⟨(key, v), Assoc.mem_of_get? hget, rfl⟩
  rw [obstacle?, Json.ordered_obj]
  cases depth with
  | zero =>
    obtain ⟨f, fs, hfields⟩ := List.exists_cons_of_ne_nil (List.ne_nil_of_mem hmem)
    rw [hfields, Json.obstacle?]
    exact (Option.some_ne_none _)
  | succ depth =>
    rw [Json.obstacle?]
    exact fun h => hv (Json.fieldsObstacle?_eq_none.mp h _ hmem)

theorem ensure_of_data (h : s.store.data = some fields) (depth : ℕ) : s.ensure depth = .ok s := by
  rw [ensure, h]
  rfl

/-- A call that does not set the key leaves the value there, refused or not. -/
theorem Has.call {key : String} {v : Json} (h : Has key v s) {c : Call} (hc : c.Spares key)
    (ds : Depths) : Has key v (s.call ds c).1 := by
  obtain ⟨fields, hdata, hget⟩ := h
  have hensure := ensure_of_data hdata ds.reading
  cases c with
  | load => exact hc.elim
  | get k default =>
    rw [Shelf.call, Shelf.get, hensure]
    exact ⟨fields, hdata, hget⟩
  | set k w =>
    rw [Shelf.call, Shelf.set, hensure]
    refine ⟨Assoc.put (Json.Str.ofString k) w fields, ?_, ?_⟩
    · dsimp only
      rw [writeOut_store, keep, Shelf.fields, hdata]
      rfl
    · rw [Assoc.get?_put_of_ne fun hk => hc (Json.Str.ofString_inj.mp hk)]
      exact hget
  | save =>
    rw [Shelf.call, Shelf.save, hensure]
    refine ⟨fields, ?_, hget⟩
    dsimp only
    rw [writeOut_store]
    exact hdata

theorem has_of_set (hobject : s.object ds.reading = .ok fields) (key : String) (v : Json) :
    Has key v (s.call ds (.set key v)).1 := by
  obtain ⟨ws, hensure⟩ := ensure_of_object hobject
  rw [call, Shelf.set, hensure]
  refine ⟨Assoc.put (Json.Str.ofString key) v fields, ?_, Assoc.get?_put_self _ _ _⟩
  dsimp only
  rw [writeOut_store]
  rfl

def afterCalls (s : Shelf) (calls : List (Depths × Call)) : Shelf :=
  calls.foldl (fun t c => (t.call c.1 c.2).1) s

theorem Has.calls {key : String} {v : Json} (h : Has key v s) {calls : List (Depths × Call)}
    (hcalls : ∀ c ∈ calls, c.2.Spares key) : Has key v (s.afterCalls calls) := by
  induction calls generalizing s with
  | nil => exact h
  | cons c calls ih =>
    obtain ⟨hc, hcalls⟩ := List.forall_mem_cons.mp hcalls
    exact ih (h.call hc c.1) hcalls

/-- Whatever is to be written next, a value that cannot be written is in the way. -/
theorem Has.refused {key : String} {v : Json} (h : Has key v s)
    (hv : Json.obstacle? (ds.writing - 1) v.ordered ≠ none) {c : Call} (hc : c.Spares key)
    (hw : c.Writes) (hready : s.Ready) : ∃ e, (s.call ds c).2 = some (.unwritable e) := by
  obtain ⟨fields, hdata, hget⟩ := h
  have hobject : s.object ds.reading = .ok fields := by
    rw [object, hdata]
  -- The object to be written has the value at the key, whichever other key is set.
  obtain ⟨fields', hwanted, hget'⟩ : ∃ fields', s.wanted ds.reading c = .ok fields' ∧
      Assoc.get? (Json.Str.ofString key) fields' = some v := by
    cases c with
    | load => exact hc.elim
    | get => exact hw.elim
    | set k w =>
      refine ⟨Assoc.put (Json.Str.ofString k) w fields, ?_, ?_⟩
      · rw [wanted, hobject]
        rfl
      · rw [Assoc.get?_put_of_ne fun hk => hc (Json.Str.ofString_inj.mp hk)]
        exact hget
    | save => exact ⟨fields, hobject, hget⟩
  obtain ⟨e, he⟩ := Option.ne_none_iff_exists'.mp (obstacle?_of_value hget' hv)
  exact ⟨e, (call_refusal s ds c _).mpr (.object hw hwanted hready he)⟩

/-- A call is refused for the reasons there are and for no other. Once a key was set, each later save and
set of another key that cannot write the value is refused, wherever the directory of the file can be
made. How deep a call can go is up to that call alone. Of paths, those with half of a surrogate pair are
left out, as no `Path` holds one: that they cannot be encoded is a reason not given here. -/
theorem refusals (s : Shelf) :
    (∀ ds c e, (s.call ds c).2 = some e ↔ Refused s ds c e) ∧
    ∀ ds key v fields, s.object ds.reading = .ok fields →
      ∀ calls : List (Depths × Call), (∀ c ∈ calls, c.2.Spares key) →
        ∀ t, (s.call ds (.set key v)).1.afterCalls calls = t → t.Ready →
          ∀ (later : Depths) (c : Call), c.Spares key → c.Writes →
            Json.obstacle? (later.writing - 1) v.ordered ≠ none →
              ∃ e, (t.call later c).2 = some (.unwritable e) := by
  refine ⟨call_refusal s, ?_⟩
  intro ds key v fields hobject calls hcalls t ht hready later c hc hw hv
  have hhas : Has key v t := ht ▸ (has_of_set hobject key v).calls hcalls
  exact hhas.refused hv hc hw hready

def onEmpty : Shelf := { store := { path := ⟨"", ["settings.json"]⟩ }, disk := {} }

def tooLong : Json := .int (Nat.pow 10 Number.digitLimit)

theorem tooLong_obstacle (depth : ℕ) :
    Json.obstacle? depth tooLong.ordered = some (.number .tooLong) := by
  show Json.obstacle? depth (.int _) = _
  rw [Json.obstacle?, Int.natAbs_natCast, if_neg (Nat.lt_irrefl _)]

theorem tooLong_in_the_way (key : Json.Str) (depth : ℕ) :
    obstacle? (depth + 1) [(key, tooLong)] = some (.number .tooLong) := by
  have horder : Json.inOrder [(key, tooLong)] = [(key, tooLong.ordered)] := by
    simp [Json.inOrder, Json.orderedFields]
  rw [obstacle?, Json.ordered_obj, horder, Json.obstacle?, Json.fieldsObstacle?, tooLong_obstacle]
  rfl

/-- The number stays in memory, and is in the way of the next key. -/
theorem refusals_after_tooLong : ∃ e,
    ((onEmpty.call ⟨988, 988⟩ (.set "a" tooLong)).1.call ⟨988, 988⟩ (.set "b" (.int 1))).2
      = some (.unwritable e) := by
  let set : Shelf := onEmpty.keep [(Json.Str.ofString "a", tooLong)]
  have hspoils : Json.obstacle? 987 tooLong.ordered ≠ none := by
    simp [tooLong_obstacle]
  have hset : (onEmpty.call ⟨988, 988⟩ (.set "a" tooLong)).1 = set := by
    have hcontent : content 988 set.fields = .error (.number .tooLong) :=
      content_of_obstacle (tooLong_in_the_way _ 987)
    show (set.writeOut 988).1 = set
    rw [writeOut_prepared (by decide), prepared_of_isDir (by decide), hcontent]
  have hspares : (Call.set "b" (.int 1)).Spares "a" := by
    show "b" ≠ "a"
    decide
  have hready : set.Ready := by
    show (set.disk.prepared set.store.path).2 = none
    decide
  rw [hset]
  exact (refusals onEmpty).2 ⟨988, 988⟩ "a" tooLong [] rfl [] (by simp) set hset hready ⟨988, 988⟩ _
    hspares trivial hspoils

/-- A number that is too long is refused where it is set. -/
theorem set_refused_of_tooLong :
    (onEmpty.call ⟨988, 988⟩ (.set "a" tooLong)).2 = some (.unwritable (.number .tooLong)) := by
  have hready : onEmpty.Ready := by
    show (onEmpty.disk.prepared onEmpty.store.path).2 = none
    decide
  exact (call_refusal _ _ _ _).mpr (.object trivial rfl hready (tooLong_in_the_way _ 987))

end Shelf
end Store
end ModalEditing
