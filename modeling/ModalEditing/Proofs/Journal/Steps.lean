import ModalEditing.Journal.Span

namespace ModalEditing.Journal
variable {α β : Type} {j j' j'' : Journal} {n : String} {P Q : Entry → Prop} {R : Journal → Journal → Prop}

def noting (j : Journal) (es : List Entry) : Journal := { j with entries := j.entries ++ es }

def adopting (j : Journal) (c : ConfigId) : Journal :=
  { j.noting [.setting c "with_profiling" (.bool true)] with active := some c, loggers := [] }

def building (j : Journal) (name : String) (c : ConfigId) : Journal :=
  { j.noting [.newLogger name c] with loggers := Assoc.put name c j.loggers }

theorem noting_env (j : Journal) (es : List Entry) : (j.noting es).env = j.env := rfl

theorem noting_nil (j : Journal) : j.noting [] = j := by
  rw [noting, List.append_nil]

theorem noting_noting (j : Journal) (es es' : List Entry) :
    (j.noting es).noting es' = j.noting (es ++ es') := by
  simp only [noting, List.append_assoc]

/-- Nothing but entries of one sort has come in, and perhaps configurations that nobody uses yet. -/
structure Adds (P : Entry → Prop) (j j' : Journal) : Prop where
  defaults : j'.defaults = j.defaults
  env : j'.env = j.env
  active : j'.active = j.active
  loggers : j'.loggers = j.loggers
  entries : ∃ es, j'.entries = j.entries ++ es ∧ ∀ e ∈ es, P e

theorem Adds.refl (j : Journal) : Adds P j j :=
  ⟨rfl, rfl, rfl, rfl, [], (List.append_nil _).symm, List.forall_mem_nil _⟩

theorem Adds.trans (h : Adds P j j') (h' : Adds P j' j'') : Adds P j j'' := by
  obtain ⟨es, hes, hP⟩ := h.entries
  obtain ⟨es', hes', hP'⟩ := h'.entries
  refine ⟨h'.defaults.trans h.defaults, h'.env.trans h.env, h'.active.trans h.active,
    h'.loggers.trans h.loggers, es ++ es', ?_, ?_⟩
  · rw [hes', hes, List.append_assoc]
  · exact List.forall_mem_append.mpr ⟨hP, hP'⟩

theorem Adds.mono (hPQ : ∀ e, P e → Q e) (h : Adds P j j') : Adds Q j j' := by
  obtain ⟨es, hes, hP⟩ := h.entries
  exact ⟨h.defaults, h.env, h.active, h.loggers, es, hes, fun e he => hPQ e (hP e he)⟩

theorem adds_noting {es : List Entry} (h : ∀ e ∈ es, P e) (j : Journal) : Adds P j (j.noting es) :=
  ⟨rfl, rfl, rfl, rfl, es, rfl, h⟩

def left : EStateM.Result Failure Journal α → Journal
  | .ok _ j => j
  | .error _ j => j

/-- However the step goes, the journals before and after it are so related. -/
def Leaves (R : Journal → Journal → Prop) (x : Step α) : Prop := ∀ j, R j (left (x.run j))

theorem Leaves.bind {x : Step α} {f : α → Step β} (htrans : ∀ {j j' j''}, R j j' → R j' j'' → R j j'')
    (hx : Leaves R x) (hf : ∀ a, Leaves R (f a)) : Leaves R (x >>= f) := by
  intro j
  have hj := hx j
  rw [EStateM.run_bind]
  cases h : x.run j with
  | ok a j' =>
    rw [h] at hj
    exact htrans hj (hf a j')
  | error e j' =>
    rw [h] at hj
    exact hj

abbrev Notes (P : Entry → Prop) (x : Step α) : Prop := Leaves (Adds P) x

theorem Notes.pure (a : α) : Notes P (Pure.pure a : Step α) := fun j => .refl j

theorem Notes.throw (e : Failure) : Notes P (MonadExcept.throw e : Step α) := fun j => .refl j

theorem Notes.bind {x : Step α} {f : α → Step β} (hx : Notes P x) (hf : ∀ a, Notes P (f a)) :
    Notes P (x >>= f) := Leaves.bind Adds.trans hx hf

theorem Notes.write {e : Entry} (h : P e) : Notes P (write e) :=
  fun j => adds_noting (List.forall_mem_singleton.mpr h) j

/-- The step never fails, only adds entries of one sort, and its result is as said. -/
def Gives (P : Entry → Prop) (S : α → Prop) (x : Step α) : Prop :=
  ∀ j, ∃ a j', x.run j = .ok a j' ∧ Adds P j j' ∧ S a

theorem Gives.pure {S : α → Prop} {a : α} (h : S a) : Gives P S (Pure.pure a : Step α) :=
  fun j => ⟨a, j, rfl, .refl j, h⟩

theorem Gives.bind {S : α → Prop} {T : β → Prop} {x : Step α} {f : α → Step β} (hx : Gives P S x)
    (hf : ∀ a, S a → Gives P T (f a)) : Gives P T (x >>= f) := by
  intro j
  obtain ⟨a, j', hrun, hadds, ha⟩ := hx j
  obtain ⟨b, j'', hrun', hadds', hb⟩ := hf a ha j'
  rw [EStateM.run_bind, hrun]
  exact ⟨b, j'', hrun', hadds.trans hadds', hb⟩

section Texts
variable {v : Json} {s : String} {e : Number.WriteError}

/-- A text is shown as it is. -/
theorem plain_string (s : String) : (Json.string s).plain = .ok s := by
  have hchar (c : Char) : (CodePoint.ofChar c).char?.getD '\uFFFD' = c := by
    rw [CodePoint.char?_ofChar, Option.getD_some]
  rw [Json.string, Json.plain, Json.Str.toString, Json.Str.ofString, List.map_map]
  refine congrArg Except.ok (Eq.trans (congrArg String.ofList ?_) String.ofList_toList)
  exact (List.map_congr_left fun c _ => hchar c).trans (List.map_id _)

theorem run_plain_ok (h : v.plain = .ok s) (j : Journal) : (plain v).run j = .ok s j := by
  rw [plain, h]
  rfl

theorem run_plain_error (h : v.plain = .error e) (j : Journal) :
    (plain v).run j = .error (.unwritable e) j := by
  rw [plain, h]
  rfl

theorem notes_plain (v : Json) : Notes P (plain v) := by
  rw [plain]
  split
  · exact .pure _
  · exact .throw _

theorem notes_plainPairs (data : List (String × Json)) : Notes P (plainPairs data) := by
  rw [plainPairs]
  induction data with
  | nil => exact .pure _
  | cons e data ih =>
    rw [List.mapM_cons]
    exact ((notes_plain e.2).bind fun s => .pure _).bind fun p => ih.bind fun ps => .pure _

end Texts

section Environment
variable {env : List (String × String)}

theorem run_get (j : Journal) : (get : Step Journal).run j = .ok j j := rfl

theorem gives_get : Gives P (fun _ => True) (get : Step Journal) := fun j => ⟨j, j, rfl, .refl j, trivial⟩

theorem run_nonempty? (name : String) (j : Journal) :
    (nonempty? name).run j = .ok ((Assoc.get? name j.env).filter (· ≠ "")) j := rfl

def isOn (value : Option String) : Bool :=
  value.any fun v =>
    ["1", "true", "yes", "on"].contains (Text.lower (String.ofList (Text.trim v.toList)))

theorem run_flag (name : String) (j : Journal) :
    (flag name).run j = .ok (isOn (Assoc.get? name j.env)) j := by
  have hvar : (var? name).run j = .ok (Assoc.get? name j.env) j := rfl
  rw [flag, EStateM.run_bind, hvar]
  cases Assoc.get? name j.env with
  | none => rfl
  | some v =>
    rw [isOn, Option.any_some]
    rfl

theorem gives_nonempty? (name : String) : Gives P (fun _ => True) (nonempty? name) :=
  fun j => ⟨_, j, run_nonempty? name j, .refl j, trivial⟩

theorem gives_flag (name : String) : Gives P (fun _ => True) (flag name) :=
  fun j => ⟨_, j, run_flag name j, .refl j, trivial⟩

def sizeText (env : List (String × String)) : String :=
  ((Assoc.get? "LOG_BUFFER_SIZE" env).filter (· ≠ "")).getD "2048"

/-- Buffering is switched on, and its size is no number. -/
def BadSize (env : List (String × String)) (e : Number.ReadError) : Prop :=
  isOn (Assoc.get? "LOG_BUFFERED" env) = true ∧ Number.read (sizeText env) = .error e

end Environment

section Configurations
variable {c : ConfigId}

def Entry.Configures : Entry → Prop
  | .newConfig _ => True
  | .setting _ _ _ => True
  | _ => False

theorem notes_newConfig : Notes Entry.Configures newConfig := fun j =>
  ⟨rfl, rfl, rfl, rfl, [.newConfig (j.configs + 1)], rfl, List.forall_mem_singleton.mpr trivial⟩

theorem run_set (c : ConfigId) (name : String) (value : Json) (j : Journal) :
    (set c name value).run j = .ok () (j.noting [.setting c name value]) := rfl

theorem notes_set (c : ConfigId) (name : String) (value : Json) :
    Notes Entry.Configures (set c name value) := .write trivial

theorem gives_set (c : ConfigId) (name : String) (value : Json) :
    Gives Entry.Configures (fun _ => True) (set c name value) :=
  fun j => ⟨(), _, run_set c name value j, notes_set c name value j, trivial⟩

theorem gives_setConsole (c : ConfigId) : Gives Entry.Configures (fun _ => True) (setConsole c) := by
  refine (gives_flag _).bind fun off _ => (gives_set c _ _).bind fun _ _ => ?_
  split
  · exact (gives_flag _).bind fun plain _ => gives_set c _ _
  · exact .pure trivial

theorem gives_setFormat (c : ConfigId) : Gives Entry.Configures (fun _ => True) (setFormat c) := by
  refine (gives_flag _).bind fun json _ => ?_
  split
  · exact gives_set c _ _
  · exact .pure trivial

theorem gives_setFile (c : ConfigId) : Gives Entry.Configures (fun _ => True) (setFile c) := by
  refine (gives_nonempty? _).bind fun file _ => gives_get.bind fun j _ => ?_
  dsimp only
  split
  · exact gives_set c _ _
  · exact .pure trivial

/-- Buffering fails on a bad size alone. -/
theorem run_setBuffering (c : ConfigId) (j : Journal) : ∃ j', Adds Entry.Configures j j' ∧
    ((∀ e, ¬ BadSize j.env e) ∧ (setBuffering c).run j = .ok () j' ∨
      ∃ e, BadSize j.env e ∧ (setBuffering c).run j = .error (.badBufferSize e) j') := by
  rw [setBuffering, EStateM.run_bind, run_flag]
  cases hon : isOn (Assoc.get? "LOG_BUFFERED" j.env) with
  | false =>
    refine ⟨j, .refl j, .inl ⟨fun e he => ?_, rfl⟩⟩
    exact Bool.false_ne_true (hon.symm.trans he.1)
  | true =>
    have hset : Adds Entry.Configures j (j.noting [.setting c "with_buffering" (.bool true)]) :=
      notes_set c _ _ j
    simp only [if_true, EStateM.run_bind, run_set, run_nonempty?, noting_env]
    cases hsize : Number.read (sizeText j.env) with
    | ok n =>
      refine ⟨_, hset.trans (notes_set c "with_buffer_size" (.int n) _), .inl ⟨fun e he => ?_, ?_⟩⟩
      · cases hsize.symm.trans he.2
      · rw [sizeText] at hsize
        rw [hsize]
        rfl
    | error e =>
      refine ⟨_, hset, .inr ⟨e, ⟨hon, hsize⟩, ?_⟩⟩
      rw [sizeText] at hsize
      rw [hsize]
      rfl

/-- The configuration of the environment is a new one. -/
theorem run_buildDefault (j : Journal) : ∃ j', Adds Entry.Configures j j' ∧
    ((∀ e, ¬ BadSize j.env e) ∧ buildDefault.run j = .ok (j.configs + 1) j' ∨
      ∃ e, BadSize j.env e ∧ buildDefault.run j = .error (.badBufferSize e) j') := by
  have hnew : newConfig.run j = .ok (j.configs + 1) (left (newConfig.run j)) := rfl
  obtain ⟨_, j₁, hlevel, h₁, -⟩ := gives_set (j.configs + 1) "with_min_level"
    (.string (Text.upper (((Assoc.get? "LOG_LEVEL" j.env).filter (· ≠ "")).getD "WARNING")))
    (left (newConfig.run j))
  obtain ⟨_, j₂, hconsole, h₂, -⟩ := gives_setConsole (j.configs + 1) j₁
  obtain ⟨_, j₃, hformat, h₃, -⟩ := gives_setFormat (j.configs + 1) j₂
  obtain ⟨_, j₄, hfile, h₄, -⟩ := gives_setFile (j.configs + 1) j₃
  obtain ⟨j₅, h₅, hbuffering⟩ := run_setBuffering (j.configs + 1) j₄
  have hadds : Adds Entry.Configures j j₄ := ((((notes_newConfig j).trans h₁).trans h₂).trans h₃).trans h₄
  rw [hadds.env] at hbuffering
  refine ⟨j₅, hadds.trans h₅, ?_⟩
  rw [buildDefault, EStateM.run_bind, hnew]
  dsimp only
  rw [EStateM.run_bind, run_nonempty?, (notes_newConfig j).env]
  simp only [EStateM.run_bind, hlevel, hconsole, hformat, hfile]
  rcases hbuffering with ⟨hgood, hrun⟩ | ⟨e, hbad, hrun⟩
  · exact .inl ⟨hgood, by rw [hrun]; rfl⟩
  · exact .inr ⟨e, hbad, by rw [hrun]⟩

theorem run_newConfig_bind {f : ConfigId → Step ConfigId}
    (hf : ∀ c, Gives Entry.Configures (· = c) (f c)) (j : Journal) :
    ∃ j', Adds Entry.Configures j j' ∧ (newConfig >>= f).run j = .ok (j.configs + 1) j' := by
  have hnew : newConfig.run j = .ok (j.configs + 1) (left (newConfig.run j)) := rfl
  obtain ⟨c, j', hrun, hadds, rfl⟩ := hf (j.configs + 1) (left (newConfig.run j))
  refine ⟨j', (notes_newConfig j).trans hadds, ?_⟩
  rw [EStateM.run_bind, hnew]
  exact hrun

theorem gives_logFile (fallback : String) : Gives P (fun _ => True) (logFile fallback) :=
  have hvar : Gives P (fun _ => True) (var? "LOG_FILE") := fun j => ⟨_, j, rfl, .refl j, trivial⟩
  hvar.bind fun _ _ => gives_get.bind fun _ _ => .pure trivial

theorem run_buildPreset (p : Preset) (j : Journal) : ∃ j', Adds Entry.Configures j j' ∧
    (buildPreset p).run j = .ok (j.configs + 1) j' := by
  cases p with
  | development =>
    exact run_newConfig_bind (fun c => (gives_set c _ _).bind fun _ _ => (gives_set c _ _).bind fun _ _ =>
      (gives_set c _ _).bind fun _ _ => (gives_set c _ _).bind fun _ _ => .pure rfl) j
  | production =>
    exact run_newConfig_bind (fun c => (gives_set c _ _).bind fun _ _ => (gives_set c _ _).bind fun _ _ =>
      (gives_logFile _).bind fun _ _ => (gives_set c _ _).bind fun _ _ =>
      (gives_set c _ _).bind fun _ _ => .pure rfl) j
  | performance =>
    exact run_newConfig_bind (fun c => (gives_set c _ _).bind fun _ _ => (gives_set c _ _).bind fun _ _ =>
      (gives_set c _ _).bind fun _ _ => (gives_set c _ _).bind fun _ _ =>
      (gives_logFile _).bind fun _ _ => (gives_set c _ _).bind fun _ _ => .pure rfl) j

/-- Why a configuration is not adopted; an empty preset counts as none. -/
inductive Unfit (env : List (String × String)) : Option ConfigId → Option String → Failure → Prop
  | both (c : ConfigId) {p : String} (hp : p ≠ "") : Unfit env (some c) (some p) .configAndPreset
  | unknown {p : String} (hp : p ≠ "") (h : Preset.ofName? p = none) :
    Unfit env none (some p) (.unknownPreset p)
  | badSize {p : Option String} (hp : p = none ∨ p = some "") {e : Number.ReadError} (h : BadSize env e) :
    Unfit env none p (.badBufferSize e)

theorem given_cases (preset : Option String) :
    (∃ p, preset = some p ∧ p ≠ "" ∧ preset.filter (· ≠ "") = some p) ∨
    ((preset = none ∨ preset = some "") ∧ preset.filter (· ≠ "") = none) := by
  cases preset with
  | none => exact .inr ⟨.inl rfl, rfl⟩
  | some p =>
    by_cases hp : p = ""
    · exact .inr ⟨.inr (congrArg some hp), by simp [hp]⟩
    · exact .inl ⟨p, rfl, hp, by simp [hp]⟩

/-- A configuration is refused for a reason, which leaves entries at most, or it is adopted. -/
theorem configure_cases (config : Option ConfigId) (preset : Option String) (j : Journal) :
    (∃ e j', Unfit j.env config preset e ∧ Adds Entry.Configures j j' ∧
      (configure config preset).run j = .error e j') ∨
    ((∀ e, ¬ Unfit j.env config preset e) ∧ ∃ j', Adds Entry.Configures j j' ∧
      (configure config preset).run j = .ok () (j'.adopting (config.getD (j.configs + 1)))) := by
  rcases given_cases preset with ⟨p, rfl, hp, hgiven⟩ | ⟨hp, hgiven⟩
  · cases config with
    | some c =>
      refine .inl ⟨_, j, .both c hp, .refl j, ?_⟩
      simp only [configure, hgiven]
      rfl
    | none =>
      simp only [configure, hgiven]
      cases hpreset : Preset.ofName? p with
      | none => exact .inl ⟨_, j, .unknown hp hpreset, .refl j, rfl⟩
      | some preset =>
        obtain ⟨j', hadds, hrun⟩ := run_buildPreset preset j
        refine .inr ⟨fun e he => ?_, j', hadds, ?_⟩
        · cases he with
          | unknown _ h => cases h.symm.trans hpreset
          | badSize h _ => exact h.elim (fun h => Option.some_ne_none p h) fun h => hp (Option.some.inj h)
        · dsimp only
          rw [EStateM.run_bind, hrun]
          rfl
  · cases config with
    | some c =>
      refine .inr ⟨fun e he => ?_, j, .refl j, ?_⟩
      · cases he with
        | both _ h => exact hp.elim (fun hp => Option.some_ne_none _ hp) fun hp => h (Option.some.inj hp)
      · simp only [configure, hgiven]
        rfl
    | none =>
      simp only [configure, hgiven]
      obtain ⟨j', hadds, ⟨hgood, hrun⟩ | ⟨e, hbad, hrun⟩⟩ := run_buildDefault j
      · refine .inr ⟨fun e he => ?_, j', hadds, ?_⟩
        · cases he with
          | unknown h _ => exact hp.elim (fun hp => Option.some_ne_none _ hp) fun hp => h (Option.some.inj hp)
          | badSize _ h => exact hgood _ h
        · rw [EStateM.run_bind, hrun]
          rfl
      · refine .inl ⟨_, j', .badSize hp hbad, hadds, ?_⟩
        rw [EStateM.run_bind, hrun]

inductive Serving (j : Journal) (n : String) : EStateM.Result Failure Journal String → Prop
  | cached {c : ConfigId} (h : Assoc.get? n j.loggers = some c) : Serving j n (.ok n j)
  | active {c : ConfigId} (h : Assoc.get? n j.loggers = none) (hc : j.active = some c) :
    Serving j n (.ok n (j.building n c))
  | first {j' : Journal} (h : Assoc.get? n j.loggers = none) (hc : j.active = none)
    (hgood : ∀ e, ¬ BadSize j.env e) (hadds : Adds Entry.Configures j j') :
    Serving j n (.ok n ((j'.adopting (j.configs + 1)).building n (j.configs + 1)))
  | failed {j' : Journal} {e : Number.ReadError} (h : Assoc.get? n j.loggers = none)
    (hc : j.active = none) (hbad : BadSize j.env e) (hadds : Adds Entry.Configures j j') :
    Serving j n (.error (.badBufferSize e) j')

theorem Serving.defaults {r : EStateM.Result Failure Journal String} (h : Serving j n r) :
    (left r).defaults = j.defaults := by
  cases h with
  | cached h => rfl
  | active h hc => rfl
  | first h hc hgood hadds => exact hadds.defaults
  | failed h hc hbad hadds => exact hadds.defaults

theorem Serving.name {l : String} {j' : Journal} (h : Serving j n (.ok l j')) : l = n := by
  cases h <;> rfl

theorem serving (name : Option String) (j : Journal) :
    Serving j (j.defaults.nameOr name) ((logger name).run j) := by
  rw [logger, EStateM.run_bind, run_get]
  dsimp only
  rw [EStateM.run_bind, run_get]
  dsimp only
  cases h : Assoc.get? (j.defaults.nameOr name) j.loggers with
  | some c => exact .cached h
  | none =>
    simp only [Option.isSome_none, Bool.false_eq_true, if_false, ensureConfig, EStateM.run_bind, run_get]
    cases hc : j.active with
    | some c => exact .active h hc
    | none =>
      obtain ⟨j', hadds, ⟨hgood, hrun⟩ | ⟨e, hbad, hrun⟩⟩ := run_buildDefault j
      · simp only [EStateM.run_bind, hrun]
        exact .first h hc hgood hadds
      · simp only [EStateM.run_bind, hrun]
        exact .failed h hc hbad hadds

end Configurations

section Messages

def Entry.Sends (text : String) : Entry → Prop
  | .message _ _ t _ => t = text
  | .trace _ _ => True
  | _ => False

theorem notes_send (l : String) (level : Json) (text : String) (data : List (String × Json)) :
    Notes (Entry.Sends text) (send l level text data) := by
  rw [send]
  refine (notes_plain level).bind fun shown => ?_
  dsimp only
  split
  · exact (notes_plainPairs data).bind fun pairs => .write rfl
  · split
    · exact (notes_plain _).bind fun fields => .write trivial
    · exact .throw _

end Messages

/-- Blocks are built from the end, the blocks inside them first. -/
theorem acts_induction {motive : List Act → Prop} (nil : motive [])
    (add : ∀ key value rest, motive rest → motive (.add key value :: rest))
    (fail : ∀ reason rest, motive rest → motive (.fail reason :: rest))
    (raise : ∀ text rest, motive rest → motive (.raise text :: rest))
    (event : ∀ name rest, motive rest → motive (.event name :: rest))
    (span : ∀ s body rest, motive body → motive rest → motive (.span s body :: rest))
    (attempt : ∀ body rest, motive body → motive rest → motive (.attempt body :: rest))
    (acts : List Act) : motive acts :=
  Act.rec_1 (motive_1 := fun a => ∀ rest, motive rest → motive (a :: rest)) (motive_2 := motive)
    add fail raise event (fun s body hbody rest => span s body rest hbody)
    (fun body hbody rest => attempt body rest hbody) nil (fun _ rest ha hrest => ha rest hrest) acts

end ModalEditing.Journal
