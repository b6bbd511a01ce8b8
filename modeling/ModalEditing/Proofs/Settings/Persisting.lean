import ModalEditing.Proofs.Interpreter.Announcement
import ModalEditing.Proofs.Settings.Durable
import ModalEditing.Settings.Persistence

namespace ModalEditing
namespace Store

/-- The flag that an object holds. -/
def flagOf (fields : Fields) : Bool :=
  match Assoc.get? (Json.Str.ofString Shelf.enabledKey) fields with
  | some (.bool b) => b
  | _ => false

theorem flagOf_put (fields : Fields) (b : Bool) :
    flagOf (Assoc.put (Json.Str.ofString Shelf.enabledKey) (.bool b) fields) = b := by
  rw [flagOf, Assoc.get?_put_self]

theorem flagOf_put_of_ne {key : String} (h : key ≠ Shelf.enabledKey) (fields : Fields) (v : Json) :
    flagOf (Assoc.put (Json.Str.ofString key) v fields) = flagOf fields := by
  rw [flagOf, Assoc.get?_put_of_ne fun hk => h (Json.Str.ofString_inj.mp hk), flagOf]

theorem get?_inOrder {fields : Fields} (h : (fields.map Prod.fst).Nodup) (k : Json.Str) :
    Assoc.get? k (Json.inOrder fields) = (Assoc.get? k fields).map Json.ordered := by
  have hkeys : ((fields.map fun f => (f.1, f.2.ordered)).map Prod.fst).Nodup := by
    rw [List.map_map]
    exact h
  rw [Assoc.get?_perm hkeys (Json.inOrder_perm fields).symm, Assoc.get?_map]

theorem flagOf_inOrder {fields : Fields} (h : (fields.map Prod.fst).Nodup) :
    flagOf (Json.inOrder fields) = flagOf fields := by
  rw [flagOf, get?_inOrder h, flagOf]
  cases Assoc.get? (Json.Str.ofString Shelf.enabledKey) fields with
  | none => rfl
  | some v => cases v <;> simp [Json.ordered]

namespace Shelf
variable {s : Shelf} {fields : Fields}

theorem loadEnabled_holding {depth : ℕ} {ws : List Warning}
    (h : s.ensure depth = .ok (s.holding fields ws)) :
    s.loadEnabled depth = .ok (s.holding fields ws, flagOf fields) := by
  have hfields : (s.holding fields ws).fields = fields := rfl
  rw [loadEnabled, Shelf.get, h, flagOf]
  simp only [Except.map, hfields]
  cases Assoc.get? (Json.Str.ofString Shelf.enabledKey) fields with
  | none => rfl
  | some v => cases v <;> rfl

theorem writeOut_warnings (s : Shelf) (depth : ℕ) : s.warnings ⊆ (s.writeOut depth).1.warnings := by
  have hfailing (e : Disk.Failure) : s.warnings ⊆ (s.prepared.failing e).1.warnings := by
    rcases s.prepared.failing_cases e with ⟨-, h⟩ | ⟨-, h⟩
    · rw [h]
      exact List.Subset.refl _
    · rw [h]
      exact List.subset_append_left _ _
  cases h : (s.disk.prepared s.store.path).2 with
  | some e =>
    rw [writeOut_unprepared h]
    exact hfailing e
  | none =>
    rw [writeOut_prepared h]
    split
    · exact List.Subset.refl _
    · split
      · exact hfailing _
      · exact List.Subset.refl _

/-- No call takes a warning back. -/
theorem set_warnings (s : Shelf) (ds : Depths) (key : String) (v : Json) :
    s.warnings ⊆ (s.set ds key v).1.warnings := by
  rcases s.ensure_cases ds.reading with ⟨e, -, hensure⟩ | ⟨fields, ws, -, hensure⟩
  · rw [Shelf.set, hensure]
    exact List.Subset.refl _
  · rw [Shelf.set, hensure]
    exact List.Subset.trans (List.subset_append_left s.warnings ws)
      (writeOut_warnings ((s.holding fields ws).keep (Assoc.put (Json.Str.ofString key) v fields)) _)

end Shelf
end Store

namespace Cabinet
variable {c c' : Cabinet} {d : ℕ} {ds : Store.Depths} {p : Path} {fields first : Store.Fields}
  {keys : List Json.Str}

/-- No save was reported as failed. -/
def Saved (c : Cabinet) : Prop := ∀ path why, .saveFailed path why ∉ c.warnings

/-- The cabinet's only store holds this object, and so does its file, perhaps with the keys in order. -/
structure Holds (d : ℕ) (p : Path) (fields : Store.Fields) (c : Cabinet) : Prop where
  stores : c.stores = [{ path := p, data := some fields }]
  file : ∃ stored, Store.taken (d + 1) (c.disk.content? p) = .ok stored ∧
    (stored = fields ∨ stored = Json.inOrder fields)

/-- An object whose values are nested at most this deep, and that has those of the first one at all but
these keys. -/
structure Keeps (d : ℕ) (first : Store.Fields) (keys : List Json.Str) (fields : Store.Fields) :
    Prop where
  exact : Json.Exact (.obj fields)
  shaped : Json.Shaped (d + 1) (.obj fields)
  same : ∀ k ∉ keys, Assoc.get? k fields = Assoc.get? k first

theorem Keeps.put (h : Keeps d first keys fields) {key : String} {v : Json} (hv : Store.Storable d v)
    (hkey : Json.Str.ofString key ∈ keys) :
    Keeps d first keys (Assoc.put (Json.Str.ofString key) v fields) where
  exact := Store.exact_put h.exact key hv.1
  shaped := Json.Reader.shaped_put h.shaped hv.2
  same k hk := by
    have hne : Json.Str.ofString key ≠ k := by
      rintro rfl
      exact hk hkey
    rw [Assoc.get?_put_of_ne hne]
    exact h.same k hk

theorem within_set (h : Holds d p fields c) (ds : Store.Depths) (key : String) (v : Json) :
    let s := (c.shelf { path := p, data := some fields }).keep
      (Assoc.put (Json.Str.ofString key) v fields)
    c.within 0 (·.set ds key v) (.ok true) = (c.putBack 0 (s.writeOut ds.writing).1, (s.writeOut ds.writing).2) := by
  rw [within, h.stores]
  rfl

/-- A set that goes through leaves the object in the store and in the file. -/
theorem Holds.set (h : Holds d p fields c) {key : String} {v : Json}
    (hfields : Keeps d first keys (Assoc.put (Json.Str.ofString key) v fields)) {b : Bool}
    (hb : (c.within 0 (·.set ds key v) (.ok true)).2 = .ok b)
    (hsaved : (c.within 0 (·.set ds key v) (.ok true)).1.Saved) :
    Holds d p (Assoc.put (Json.Str.ofString key) v fields)
      (c.within 0 (·.set ds key v) (.ok true)).1 := by
  rw [within_set h ds key v] at hb hsaved ⊢
  generalize hs : (c.shelf { path := p, data := some fields }).keep
    (Assoc.put (Json.Str.ofString key) v fields) = s at hb hsaved ⊢
  have hstore : s.store = { path := p, data := some (Assoc.put (Json.Str.ofString key) v fields) } := by
    rw [← hs]
    rfl
  have hheld : s.fields = Assoc.put (Json.Str.ofString key) v fields := by
    rw [Store.Shelf.fields, hstore]
    rfl
  rcases s.writeOut_cases ds.writing with ⟨e, he⟩ | ⟨-, -, why, hwhy⟩ | ⟨-, bytes, hcontent, hread⟩
  · rw [he] at hb
    cases hb
  · exact absurd hwhy (hsaved _ why)
  · rw [hheld] at hcontent
    rw [hstore] at hread
    have hparse := Store.Shelf.parse_saved hfields.exact hfields.shaped hcontent (Nat.le_refl (d + 1))
    refine ⟨?_, _, Store.Shelf.taken_of_saved hparse hread, .inr rfl⟩
    rw [putBack, h.stores, Store.Shelf.writeOut_store, hstore]
    rfl

/-- Where the directory of the file is there and the file can be written, a set goes through. -/
theorem within_set_written (h : Holds d p fields c) {key : String} {v : Json} {bytes : ByteArray} {disk : Disk}
    (hdir : c.disk.isDir p.parent = true)
    (hcontent : Store.Shelf.content ds.writing (Assoc.put (Json.Str.ofString key) v fields) = .ok bytes)
    (hwrite : c.disk.write p bytes = .ok disk) :
    c.within 0 (·.set ds key v) (.ok true) =
      ({ c with disk := disk,
                stores := [{ path := p, data := some (Assoc.put (Json.Str.ofString key) v fields) }] },
        .ok true) := by
  let s := (c.shelf { path := p, data := some fields }).keep
    (Assoc.put (Json.Str.ofString key) v fields)
  have hwritten : s.writeOut ds.writing = ({ s with disk := disk }, .ok true) :=
    Store.Shelf.writeOut_written hdir hcontent hwrite
  rw [within_set h]
  show (c.putBack 0 (s.writeOut ds.writing).1, (s.writeOut ds.writing).2) = _
  rw [hwritten, putBack, h.stores]
  rfl

theorem within_warnings (c : Cabinet) (ds : Store.Depths) (key : String) (v : Json) :
    c.warnings ⊆ (c.within 0 (·.set ds key v) (.ok true)).1.warnings := by
  rw [within]
  cases c.stores[0]? with
  | none => exact List.Subset.refl _
  | some store => exact (c.shelf store).set_warnings ds key v

theorem within_interpreters (c : Cabinet) (ds : Store.Depths) (key : String) (v : Json) :
    (c.within 0 (·.set ds key v) (.ok true)).1.interpreters = c.interpreters := by
  rw [within]
  cases c.stores[0]? <;> rfl

theorem Saved.of_subset (h : c'.Saved) (hw : c.warnings ⊆ c'.warnings) : c.Saved :=
  fun path why hmem => h path why (hw hmem)

def flag? (m : Moment) : Option Bool := m.notice.event?.bind Event.enabled?

def Hearing (b : Observers Persist) : Prop := ∃ n, b.hearing .enabled = [⟨n, 0⟩]

theorem tell_cons {observers : Observers Persist} (ho : Hearing observers) (final : State) (m : Moment)
    (ms : List Moment) : c.tell ds observers final (m :: ms) =
      match flag? m with
      | none => c.tell ds observers final ms
      | some b => match c.within 0 (·.set ds Store.Shelf.enabledKey (.bool b)) (.ok true) with
        | (c, .error e) => (c, m.state, some e)
        | (c, .ok _) => c.tell ds observers final ms := by
  obtain ⟨n, hn⟩ := ho
  obtain ⟨notice, s⟩ := m
  cases notice with
  | report r => rfl
  | event e =>
    cases e with
    | enabled b =>
      rw [tell, hn, persist]
      show _ = (match c.within 0 (·.set ds Store.Shelf.enabledKey (.bool b)) (.ok true) with
        | (c, .error e) => (c, s, some e)
        | (c, .ok _) => c.tell ds observers final ms)
      generalize c.within 0 (·.set ds Store.Shelf.enabledKey (.bool b)) (.ok true) = r
      obtain ⟨c', e | saved⟩ := r <;> rfl
    | _ => rfl

/-- What tells of no flag changes nothing here. -/
theorem tell_of_quiet {observers : Observers Persist} (ho : Hearing observers) (c : Cabinet)
    (final : State) {ms : List Moment} (hms : ms.filterMap flag? = []) :
    c.tell ds observers final ms = (c, final, none) := by
  induction ms with
  | nil => rfl
  | cons m ms ih =>
    have hm : flag? m = none := List.filterMap_eq_nil_iff.mp hms m List.mem_cons_self
    rw [List.filterMap_cons_none hm] at hms
    rw [tell_cons ho, hm]
    exact ih hms

theorem tell_of_flag {observers : Observers Persist} (ho : Hearing observers) (final : State) {b : Bool}
    {ms : List Moment} (hms : ms.filterMap flag? = [b]) {saved : Bool}
    (hset : c.within 0 (·.set ds Store.Shelf.enabledKey (.bool b)) (.ok true) = (c', .ok saved)) :
    c.tell ds observers final ms = (c', final, none) := by
  induction ms with
  | nil => cases hms
  | cons m ms ih =>
    rw [tell_cons ho]
    cases hm : flag? m with
    | none =>
      rw [List.filterMap_cons_none hm] at hms
      exact ih hms
    | some b' =>
      rw [List.filterMap_cons_some hm] at hms
      obtain ⟨rfl, hrest⟩ := List.cons.inj hms
      dsimp only
      rw [hset]
      exact tell_of_quiet ho c' final hrest

theorem storable_bool (d : ℕ) (b : Bool) : Store.Storable d (.bool b) := by
  refine ⟨.bool b, ?_⟩
  cases d <;> trivial

theorem tell_warnings {observers : Observers Persist} (ho : Hearing observers) (c : Cabinet)
    (ds : Store.Depths) (final : State) (ms : List Moment) : c.warnings ⊆ (c.tell ds observers final ms).1.warnings := by
  induction ms generalizing c with
  | nil => exact List.Subset.refl _
  | cons m ms ih =>
    rw [tell_cons ho]
    cases flag? m with
    | none => exact ih c
    | some b =>
      dsimp only
      have hset := c.within_warnings ds Store.Shelf.enabledKey (.bool b)
      generalize c.within 0 (·.set ds Store.Shelf.enabledKey (.bool b)) (.ok true) = r at hset ⊢
      obtain ⟨c', e | saved⟩ := r
      · exact hset
      · exact List.Subset.trans hset (ih c')

/-- What a turn tells is carried to the file: the flag there becomes the one told last, if any is. -/
theorem Holds.tell (h : Holds d p fields c) (hk : Keeps d first keys fields)
    (hkey : Json.Str.ofString Store.Shelf.enabledKey ∈ keys) {observers : Observers Persist}
    (ho : Hearing observers) {final s : State} {ms : List Moment}
    (ht : c.tell ds observers final ms = (c', s, none)) (hsaved : c'.Saved) :
    s = final ∧ c'.interpreters = c.interpreters ∧
      ∃ fields', Holds d p fields' c' ∧ Keeps d first keys fields' ∧
        Store.flagOf fields' = ((ms.filterMap flag?).getLast?).getD (Store.flagOf fields) := by
  -- Warnings are never taken back, so each save on the way went through as well.
  induction ms generalizing c fields with
  | nil =>
    obtain ⟨rfl, hs⟩ := Prod.mk.inj ht
    obtain ⟨rfl, -⟩ := Prod.mk.inj hs
    exact ⟨rfl, rfl, fields, h, hk, rfl⟩
  | cons m ms ih =>
    rw [tell_cons ho] at ht
    cases hm : flag? m with
    | none =>
      rw [hm] at ht
      rw [List.filterMap_cons_none hm]
      exact ih h hk ht
    | some b =>
      rw [hm] at ht
      dsimp only at ht
      have hput := hk.put (storable_bool d b) hkey
      have hinterpreters := c.within_interpreters ds Store.Shelf.enabledKey (.bool b)
      cases hr : c.within 0 (·.set ds Store.Shelf.enabledKey (.bool b)) (.ok true) with
      | mk c₁ answer =>
        rw [hr] at ht hinterpreters
        cases answer with
        | error e =>
          obtain ⟨-, hs⟩ := Prod.mk.inj ht
          cases (Prod.mk.inj hs).2
        | ok saved =>
          dsimp only at ht
          have hwarnings := tell_warnings ho c₁ ds final ms
          rw [ht] at hwarnings
          have hset : Holds d p (Assoc.put (Json.Str.ofString Store.Shelf.enabledKey) (.bool b) fields)
              c₁ := by
            have hset := h.set hput (congrArg Prod.snd hr) (by
              rw [hr]
              exact hsaved.of_subset hwarnings)
            rwa [hr] at hset
          obtain ⟨hs, hi, fields', hheld, hkeeps, hflag⟩ := ih hset hput ht
          refine ⟨hs, hi.trans hinterpreters, fields', hheld, hkeeps, ?_⟩
          rw [hflag, Store.flagOf_put, List.filterMap_cons_some hm, List.getLast?_cons]
          rfl

/-- What may be asked of an interpreter and its store: to handle a key under some keymap, to be steered,
and to set another key. -/
inductive Request
  | press (t : Keymap) (k : Key)
  | steer (k : State.Control)
  | set (key : String) (value : Json)

def perform (c : Cabinet) (ds : Store.Depths) (name : String) :
    Request → Cabinet × Option Store.Failure
  | .press t k => c.carry ds name (c.bound name) ((c.bound name).state.handle t k).1
  | .steer k => c.control ds name k
  | .set key v =>
    match c.within c.current (·.set ds key v) (.ok true) with
    | (c, .error e) => (c, some e)
    | (c, .ok _) => (c, none)

def Request.key? : Request → Option String
  | .set key _ => some key
  | _ => none

/-- Only values that can be read back where collections may be nested this deep are set, and not the
flag. -/
def Request.Fit (d : ℕ) : Request → Prop
  | .set key v => key ≠ Store.Shelf.enabledKey ∧ Store.Storable d v
  | _ => True

/-- A cabinet after some requests, none of them refused and each save going through, and the keys that
were set. Each request has as much of the stack as there is. -/
inductive Run (d : ℕ) (name : String) (c₀ : Cabinet) : List String → Cabinet → Prop
  | start : Run d name c₀ [] c₀
  | step {keys : List String} {c c' : Cabinet} {ds : Store.Depths} {r : Request}
    (h : Run d name c₀ keys c) (hr : r.Fit d) (hperform : c.perform ds name r = (c', none))
    (hsaved : c'.Saved) : Run d name c₀ (keys ++ r.key?.toList) c'

def touched (keys : List String) : List Json.Str :=
  (Store.Shelf.enabledKey :: keys).map Json.Str.ofString

/-- The store, its file and the interpreter bound to it agree on the flag. -/
def Synced (d : ℕ) (p : Path) (name : String) (first : Store.Fields) (keys : List String) (c : Cabinet) : Prop :=
  ∃ fields b, Holds d p fields c ∧ Keeps d first (touched keys) fields ∧
    Assoc.get? name c.interpreters = some b ∧ Hearing b.observers ∧
    Store.flagOf fields = b.state.enabled

theorem bound_eq {name : String} {b : Bound} (h : Assoc.get? name c.interpreters = some b) :
    c.bound name = b := by
  rw [bound, h]
  rfl

theorem flag_mem_touched (keys : List String) :
    Json.Str.ofString Store.Shelf.enabledKey ∈ touched keys :=
  List.mem_map_of_mem List.mem_cons_self

theorem Keeps.mono {keys' : List Json.Str} (h : Keeps d first keys fields) (hsub : keys ⊆ keys') :
    Keeps d first keys' fields :=
  ⟨h.exact, h.shaped, fun k hk => h.same k fun hmem => hk (hsub hmem)⟩

/-- The flag told last by a call of an interpreter is its flag, and none is told only where it stays. -/
theorem flag_turn (s : Session) (call : Session.Call) :
    (((s.turn call).moments.filterMap flag?).getLast?).getD s.state.enabled
      = (s.step call).state.enabled := by
  obtain ⟨action?, told, hevents, -⟩ := s.announces call
  have hlatest := State.latest?_enabled_announcement s.state (s.step call).state action? told
  rw [← hevents, latest?, Turn.events_eq, List.filterMap_filterMap] at hlatest
  have hflag : (s.turn call).moments.filterMap flag?
      = (s.turn call).moments.filterMap fun m => m.notice.event?.bind Event.enabled? := rfl
  rw [hflag]
  cases h : ((s.turn call).moments.filterMap fun m => m.notice.event?.bind Event.enabled?).getLast? with
  | none =>
    rw [h] at hlatest
    exact Option.some.inj hlatest
  | some b =>
    rw [h] at hlatest
    exact Option.some.inj hlatest

theorem Synced.carry {name : String} {keys : List String} (h : Synced d p name first keys c)
    (t : Keymap) (call : Session.Call)
    (hcarry : c.carry ds name (c.bound name) (Session.turn ⟨(c.bound name).state, t⟩ call) = (c', none))
    (hsaved : c'.Saved) : Synced d p name first keys c' := by
  obtain ⟨fields, b, hheld, hkeeps, hb, hhearing, hflag⟩ := h
  rw [bound_eq hb] at hcarry
  rw [Cabinet.carry] at hcarry
  generalize hturn : Session.turn ⟨b.state, t⟩ call = turn at hcarry
  cases htell : c.tell ds b.observers turn.state turn.moments with
  | mk c₁ rest =>
    obtain ⟨s, failure⟩ := rest
    rw [htell] at hcarry
    obtain ⟨rfl, rfl⟩ := Prod.mk.inj hcarry
    obtain ⟨rfl, hi, fields', hheld', hkeeps', hflag'⟩ :=
      hheld.tell hkeeps (flag_mem_touched keys) hhearing htell hsaved
    refine ⟨fields', _, ⟨hheld'.stores, hheld'.file⟩, hkeeps', Assoc.get?_put_self _ _ _, hhearing, ?_⟩
    rw [hflag', hflag, ← hturn]
    exact flag_turn ⟨b.state, t⟩ call

theorem Synced.set {name : String} {keys : List String} (h : Synced d p name first keys c) {key : String}
    {v : Json} (hkey : key ≠ Store.Shelf.enabledKey) (hv : Store.Storable d v)
    (hperform : c.perform ds name (.set key v) = (c', none)) (hsaved : c'.Saved) :
    Synced d p name first (keys ++ [key]) c' := by
  obtain ⟨fields, b, hheld, hkeeps, hb, hhearing, hflag⟩ := h
  have hmono : touched keys ⊆ touched (keys ++ [key]) :=
    List.map_subset _ (List.cons_subset_cons _ (List.subset_append_left keys [key]))
  have hmem : Json.Str.ofString key ∈ touched (keys ++ [key]) :=
    List.mem_map_of_mem (List.mem_cons_of_mem _ (List.mem_append_right _ (List.mem_singleton.mpr rfl)))
  have hput := (hkeeps.mono hmono).put hv hmem
  have hcurrent : c.current = 0 := by rw [current, hheld.stores]; rfl
  have hinterpreters := c.within_interpreters ds key v
  rw [perform, hcurrent] at hperform
  cases hr : c.within 0 (·.set ds key v) (.ok true) with
  | mk c₁ answer =>
    rw [hr] at hperform hinterpreters
    cases answer with
    | error e => cases (Prod.mk.inj hperform).2
    | ok saved =>
      obtain ⟨rfl, -⟩ := Prod.mk.inj hperform
      have hset := hheld.set hput (congrArg Prod.snd hr) (by
        rw [hr]
        exact hsaved)
      rw [hr] at hset
      refine ⟨_, b, hset, hput, ?_, hhearing, ?_⟩
      · rw [hinterpreters, hb]
      · rw [Store.flagOf_put_of_ne hkey, hflag]

/-- Whatever goes through keeps the flag, the store and the file together. -/
theorem Synced.perform {name : String} {keys : List String} (h : Synced d p name first keys c)
    {r : Request} (hr : r.Fit d) (hperform : c.perform ds name r = (c', none)) (hsaved : c'.Saved) :
    Synced d p name first (keys ++ r.key?.toList) c' := by
  cases r with
  | press t k =>
    show Synced d p name first (keys ++ []) c'
    rw [List.append_nil]
    exact h.carry t (.key k) hperform hsaved
  | steer k =>
    show Synced d p name first (keys ++ []) c'
    rw [List.append_nil]
    exact h.carry {} (.control k) hperform hsaved
  | set key v => exact h.set hr.1 hr.2 hperform hsaved

theorem Run.synced {name : String} {c₀ : Cabinet} {keys : List String} (h₀ : Synced d p name first [] c₀)
    (h : Run d name c₀ keys c) : Synced d p name first keys c := by
  induction h with
  | start => exact h₀
  | step _ hr hperform hsaved ih => exact ih.perform hr hperform hsaved

def single (disk : Disk) (p : Path) : Cabinet := { disk, stores := [{ path := p }] }

def newlyBound (flag : Bool) : Bound :=
  { state := { enabled := flag }, observers := Bus.subscribe {} Topic.enabled.name ⟨0, 0⟩,
    subscriptions := [⟨0, 0⟩] }

def joined (disk : Disk) (p : Path) (fields : Store.Fields) (name : String) (b : Bound)
    (ws : List Store.Warning) : Cabinet :=
  { disk, stores := [{ path := p, data := some fields }], interpreters := [(name, b)], bindings := 1,
    warnings := ws }

theorem hearing_newlyBound (flag : Bool) : Hearing (newlyBound flag).observers :=
  ⟨0, Bus.listeners_subscribe {} _ _⟩

section
variable {disk disk' : Disk}

theorem get?_joined (disk : Disk) (name : String) (b : Bound) (ws : List Store.Warning) :
    Assoc.get? name (joined disk p fields name b ws).interpreters = some b :=
  Assoc.get?_put_self name b []

theorem bind_of_ensure {depth : ℕ} (name : String) {ws : List Store.Warning}
    (h : ((single disk p).shelf { path := p }).ensure depth
      = .ok (((single disk p).shelf { path := p }).holding fields ws)) :
    (single disk p).bind depth name true
      = .ok (joined disk p fields name (newlyBound (Store.flagOf fields)) ws) := by
  have hobtain : (single disk p).obtain depth name true = .ok
      ((single disk p).putBack 0 (((single disk p).shelf { path := p }).holding fields ws),
        { state := { enabled := Store.flagOf fields } }) := by
    show Except.map _ (Except.map _ (((single disk p).shelf { path := p }).loadEnabled depth)) = _
    rw [Store.Shelf.loadEnabled_holding h]
    rfl
  rw [bind, hobtain]
  rfl

/-- A new interpreter that is bound to the only store starts with the flag in its file. -/
theorem bind_single (name : String) (hexact : Json.Exact (.obj fields))
    (htaken : Store.taken (d + 1) (disk.content? p) = .ok fields) {depth : ℕ} (hd : d < depth) :
    ∃ c₀, (single disk p).bind depth name true = .ok c₀ ∧ Synced d p name fields [] c₀ := by
  obtain ⟨ws, hensure⟩ := Store.Shelf.ensure_of_object (s := (single disk p).shelf { path := p })
    (Store.taken_deeper htaken hd)
  exact ⟨_, bind_of_ensure name hensure, fields, _, ⟨rfl, fields, htaken, .inl rfl⟩,
    ⟨hexact, Store.taken_shaped htaken, fun k _ => rfl⟩, get?_joined disk name _ ws,
    hearing_newlyBound _, rfl⟩

/-- An interpreter that starts with the flag in a file and is bound to it there: as long as nothing is
refused and each save goes through, a store opened anew loads the interpreter's flag, and finds the other
keys of the file as they were, except those set. Here `d` bounds how deep the values in the file and those
set are nested; the bound and the new store have to go deeper. -/
theorem flag_persists (name : String) (hexact : Json.Exact (.obj fields))
    (htaken : Store.taken (d + 1) (disk.content? p) = .ok fields) {depth : ℕ} (hd : d < depth) :
    ∃ c₀, (single disk p).bind depth name true = .ok c₀ ∧ ∀ keys c, Run d name c₀ keys c →
      ∀ later, d < later →
        ∃ s : Store.Shelf, Store.Shelf.loadEnabled { store := { path := p }, disk := c.disk } later
          = .ok (s, (c.bound name).state.enabled) ∧
        ∀ k ∉ touched keys, Assoc.get? k s.fields = Assoc.get? k fields ∨
          Assoc.get? k s.fields = (Assoc.get? k fields).map Json.ordered := by
  obtain ⟨c₀, hbind, hstart⟩ := bind_single name hexact htaken hd
  refine ⟨c₀, hbind, fun keys c hrun later hlater => ?_⟩
  obtain ⟨held, b, ⟨-, stored, hfile, horder⟩, hkeeps, hb, -, hflag⟩ := hrun.synced hstart
  have hnodup : (held.map Prod.fst).Nodup := hkeeps.shaped.1
  obtain ⟨ws, hensure⟩ := Store.Shelf.ensure_of_object
    (s := { store := { path := p }, disk := c.disk }) (Store.taken_deeper hfile hlater)
  refine ⟨Store.Shelf.holding { store := { path := p }, disk := c.disk } stored ws, ?_, fun k hk => ?_⟩
  · rw [Store.Shelf.loadEnabled_holding hensure, bound_eq hb, ← hflag]
    rcases horder with rfl | rfl
    · rfl
    · rw [Store.flagOf_inOrder hnodup]
  · show Assoc.get? k stored = _ ∨ Assoc.get? k stored = _
    rw [← hkeeps.same k hk]
    rcases horder with rfl | rfl
    · exact .inl rfl
    · exact .inr (Store.get?_inOrder hnodup k)

/-- A toggle writes the flag where the file can be written. -/
theorem perform_toggle (ds : Store.Depths) (name : String) (ws : List Store.Warning)
    (htaken : Store.taken (d + 1) (disk.content? p) = .ok fields) (hdir : disk.isDir p.parent = true)
    {bytes : ByteArray}
    (hcontent : Store.Shelf.content ds.writing
      (Assoc.put (Json.Str.ofString Store.Shelf.enabledKey) (.bool true) fields) = .ok bytes)
    (hwrite : disk.write p bytes = .ok disk') :
    (joined disk p fields name (newlyBound false) ws).perform ds name (.steer .toggle) =
      (joined disk' p (Assoc.put (Json.Str.ofString Store.Shelf.enabledKey) (.bool true) fields) name
        { newlyBound false with state := (State.control {} .toggle).state } ws, none) := by
  have hset := within_set_written (c := joined disk p fields name (newlyBound false) ws)
    ⟨rfl, fields, htaken, .inl rfl⟩ hdir hcontent hwrite
  have hmoments : (State.control {} .toggle).moments.filterMap flag? = [true] := rfl
  have htell := tell_of_flag (hearing_newlyBound false) (State.control {} .toggle).state hmoments hset
  have hput (b : Bound) : Assoc.put name b [(name, newlyBound false)] = [(name, b)] := by
    rw [Assoc.put, if_pos rfl]
  show control _ ds name .toggle = _
  rw [control, bound_eq (get?_joined disk name _ ws)]
  show carry _ ds name _ (State.control {} .toggle) = _
  rw [carry, htell]
  exact congrArg (fun interpreters => ({ joined disk' p _ name (newlyBound false) ws with
    interpreters := interpreters }, none)) (hput _)

end

def noted : Store.Fields := [(Json.Str.ofString "a", .null)]

theorem exact_noted : Json.Exact (.obj noted) := Store.exact_put Json.exact_empty "a" .null

theorem shaped_noted : Json.Shaped 1 (.obj noted) :=
  Json.Reader.shaped_put (k := Json.Str.ofString "a") Json.shaped_empty trivial

/-- A file with another key in it keeps the key where the flag is written beside it. -/
theorem flag_persists_after_toggle : ∃ disk p c₀ c, (single disk p).bind 1 "editor" true = .ok c₀ ∧
    Run 0 "editor" c₀ [] c ∧ (c.bound "editor").state.enabled = true ∧
    ∃ s : Store.Shelf, Store.Shelf.loadEnabled { store := { path := p }, disk := c.disk } 1
        = .ok (s, true) ∧ Assoc.get? (Json.Str.ofString "a") s.fields = some .null := by
  obtain ⟨bytes, -, hparse⟩ := Store.parse_content exact_noted shaped_noted
  have horder : Json.inOrder noted = noted := by
    simp [noted, Json.inOrder, Json.orderedFields, Json.ordered]
  have hparse : Store.parse 1 bytes = .ok noted := horder ▸ hparse 1 (Nat.le_refl 1)
  have hread := Store.Shelf.onFile_read bytes
  have htaken : Store.taken (0 + 1) ((Store.Shelf.onFile bytes).disk.content? ⟨"", ["settings.json"]⟩)
      = .ok noted := Store.Shelf.taken_of_saved hparse hread
  have hload : Store.Shelf.Loads (Store.Shelf.onFile bytes).disk 1 ⟨"", ["settings.json"]⟩ noted :=
    Store.Shelf.loads_of_read hread hparse
  have hbind : (single (Store.Shelf.onFile bytes).disk ⟨"", ["settings.json"]⟩).bind 1 "editor" true
      = .ok (joined _ _ noted "editor" (newlyBound false) []) := bind_of_ensure "editor" hload
  obtain ⟨bytes', hcontent, -⟩ := Store.parse_content
    (Store.exact_put exact_noted Store.Shelf.enabledKey (storable_bool 0 true).1)
    (Json.Reader.shaped_put shaped_noted (storable_bool 0 true).2)
  have hwrite : (Store.Shelf.onFile bytes).disk.write ⟨"", ["settings.json"]⟩ bytes'
      = .ok { entries := [(["settings.json"], .file bytes')] } := rfl
  have htoggle := perform_toggle ⟨1, 1⟩ "editor" [] htaken rfl (hcontent 1 (Nat.le_refl 1)) hwrite
  obtain ⟨c₀, hbound, h⟩ := flag_persists "editor" exact_noted htaken Nat.one_pos
  obtain rfl := Except.ok.inj (hbound.symm.trans hbind)
  have hrun := Run.step (d := 0) (r := .steer .toggle) .start trivial htoggle
    fun path why hmem => absurd hmem List.not_mem_nil
  obtain ⟨s, hs, hkeys⟩ := h _ _ hrun 1 Nat.one_pos
  refine ⟨_, _, _, _, hbind, hrun, rfl, s, hs, ?_⟩
  rcases hkeys (Json.Str.ofString "a") (by decide) with ha | ha
  · exact ha
  · exact ha

end Cabinet
end ModalEditing
