import ModalEditing.Proofs.Journal.Brackets
import ModalEditing.Proofs.Maps

namespace ModalEditing.Journal
variable {α : Type} {j j' j'' : Journal} {n : String} {c : ConfigId}

def Entry.built? : Entry → Option (String × ConfigId)
  | .newLogger name config => some (name, config)
  | _ => none

/-- The loggers kept are among those built, one for each name, and all with the active configuration. -/
structure Current (j : Journal) : Prop where
  active : ∀ e ∈ j.loggers, j.active = some e.2
  names : (j.loggers.map Prod.fst).Nodup
  built : ∃ old log, j.entries = old ++ log ∧ j.loggers = log.filterMap Entry.built?

/-- Loggers are kept, and those built come to them; an active configuration stays. -/
structure Grows (j j' : Journal) : Prop where
  defaults : j'.defaults = j.defaults
  active : j.active ≠ none → j'.active = j.active
  loggers : ∃ log, j'.entries = j.entries ++ log ∧ j'.loggers = j.loggers ++ log.filterMap Entry.built?

theorem Grows.refl (j : Journal) : Grows j j :=
  ⟨rfl, fun _ => rfl, [], (List.append_nil _).symm, (List.append_nil _).symm⟩

theorem Grows.trans (h : Grows j j') (h' : Grows j' j'') : Grows j j'' := by
  obtain ⟨log, hlog, hbuilt⟩ := h.loggers
  obtain ⟨log', hlog', hbuilt'⟩ := h'.loggers
  refine ⟨h'.defaults.trans h.defaults, fun hne => ?_, log ++ log', ?_, ?_⟩
  · rw [h'.active (h.active hne ▸ hne), h.active hne]
  · rw [hlog', hlog, List.append_assoc]
  · rw [hbuilt', hbuilt, List.filterMap_append, List.append_assoc]

theorem Current.fresh (defaults : Defaults) (env : List (String × String)) : Current { defaults, env } :=
  ⟨List.forall_mem_nil _, List.nodup_nil, [], [], rfl, rfl⟩

theorem Current.loggers_eq_nil (h : Current j) (hc : j.active = none) : j.loggers = [] :=
  List.eq_nil_iff_forall_not_mem.mpr fun e he => Option.some_ne_none _ ((h.active e he).symm.trans hc)

/-- What is kept stays current, and grows. -/
def Carries (j j' : Journal) : Prop := Current j → Current j' ∧ Grows j j'

theorem Carries.refl (j : Journal) : Carries j j := fun h => ⟨h, .refl j⟩

theorem Carries.trans (h : Carries j j') (h' : Carries j' j'') : Carries j j'' := fun hj =>
  ⟨(h' (h hj).1).1, (h hj).2.trans (h' (h hj).1).2⟩

def Entry.BuildsNone (e : Entry) : Prop := e.built? = none

theorem Entry.Configures.buildsNone {e : Entry} (h : e.Configures) : e.BuildsNone := by
  cases e <;> first | rfl | exact h.elim

theorem Entry.Sends.buildsNone {text : String} {e : Entry} (h : e.Sends text) : e.BuildsNone := by
  cases e <;> first | rfl | exact h.elim

theorem Adds.carries (h : Adds Entry.BuildsNone j j') : Carries j j' := by
  intro hj
  obtain ⟨es, hes, hnone⟩ := h.entries
  obtain ⟨old, log, hlog, hbuilt⟩ := hj.built
  have hes' : es.filterMap Entry.built? = [] := List.filterMap_eq_nil_iff.mpr hnone
  refine ⟨⟨fun e he => ?_, ?_, old, log ++ es, ?_, ?_⟩, h.defaults, fun _ => h.active, es, hes, ?_⟩
  · rw [h.active]
    exact hj.active e (h.loggers ▸ he)
  · rw [h.loggers]
    exact hj.names
  · rw [hes, hlog, List.append_assoc]
  · rw [h.loggers, hbuilt, List.filterMap_append, hes', List.append_nil]
  · rw [h.loggers, hes', List.append_nil]

/-- A logger that is not kept yet can be built with the active configuration. -/
theorem carries_building (hn : Assoc.get? n j.loggers = none) (hc : j.active = some c) :
    Carries j (j.building n c) := by
  intro hj
  have hnew := Assoc.not_mem_of_get? hn
  have hloggers : (j.building n c).loggers = j.loggers ++ [(n, c)] := Assoc.put_of_new hnew
  obtain ⟨old, log, hlog, hbuilt⟩ := hj.built
  refine ⟨⟨fun e he => ?_, ?_, old, log ++ [.newLogger n c], ?_, ?_⟩, rfl, fun _ => rfl, [.newLogger n c],
    rfl, hloggers⟩
  · rw [hloggers, List.mem_append, List.mem_singleton] at he
    rcases he with he | rfl
    · exact hj.active e he
    · exact hc
  · exact Assoc.nodup_put hj.names
  · rw [← List.append_assoc, ← hlog]
    rfl
  · rw [hloggers, hbuilt, List.filterMap_append]
    rfl

/-- Where none is active, no logger is lost by making a configuration the active one. -/
theorem carries_adopting (hc : j.active = none) (c : ConfigId) : Carries j (j.adopting c) := by
  intro hj
  refine ⟨⟨List.forall_mem_nil _, List.nodup_nil, j.entries ++ [.setting c "with_profiling" (.bool true)], [],
    (List.append_nil _).symm, rfl⟩, rfl, fun hne => absurd hc hne, _, rfl, ?_⟩
  rw [hj.loggers_eq_nil hc]
  rfl

theorem Serving.carries {r : EStateM.Result Failure Journal String} (h : Serving j n r) :
    Carries j (left r) := by
  cases h with
  | cached h => exact .refl j
  | active h hc => exact carries_building h hc
  | first h hc hgood hadds =>
    have hcarries := (hadds.mono fun e => Entry.Configures.buildsNone).carries
    exact (hcarries.trans (carries_adopting (hadds.active.trans hc) _)).trans (carries_building rfl rfl)
  | failed h hc hbad hadds => exact (hadds.mono fun e => Entry.Configures.buildsNone).carries

theorem carries_logger (name : Option String) : Leaves Carries (logger name) := fun j =>
  (serving name j).carries

theorem Notes.carries {x : Step α} (h : Notes Entry.BuildsNone x) : Leaves Carries x := fun j =>
  (h j).carries

theorem carries_event (name : String) (level : Json) (l : Option String) (data : List (String × Json)) :
    Leaves Carries (event name level l data) := by
  rw [event]
  refine Leaves.bind Carries.trans (carries_logger l) fun n => Notes.carries fun j => ?_
  exact (notes_send n level _ _ j).mono fun e => Entry.Sends.buildsNone

section Spans
variable {s : Span}

theorem buildsNone_added (l : String) (texts : List (String × String)) :
    ∀ e ∈ added l texts, e.BuildsNone := by
  intro e he
  obtain ⟨t, -, rfl⟩ := List.mem_map.mp he
  rfl

theorem buildsNone_opening (h : Handle) : ∀ e ∈ h.opening, e.BuildsNone := by
  intro e he
  rw [Handle.opening, List.mem_append, List.mem_append, List.mem_singleton] at he
  rcases he with (he | he) | rfl
  · exact buildsNone_added _ _ e he
  · obtain ⟨c, -, rfl⟩ := Option.map_eq_some_iff.mp (Option.mem_toList.mp he)
    rfl
  · rfl

theorem buildsNone_closing (h : Handle) : ∀ e ∈ h.closing, e.BuildsNone := by
  intro e he
  rw [Handle.closing, List.mem_append, List.mem_cons] at he
  rcases he with he | rfl | he
  · obtain ⟨k, -, rfl⟩ := List.mem_map.mp he
    rfl
  · rfl
  · obtain ⟨c, -, rfl⟩ := Option.map_eq_some_iff.mp (Option.mem_toList.mp he)
    rfl

theorem buildsNone_report (h : Handle) (failure : Option Failure) :
    ∀ e ∈ h.report failure, e.BuildsNone := by
  intro e he
  obtain ⟨f, -, rfl⟩ := Option.map_eq_some_iff.mp (Option.mem_toList.mp he)
  rfl

theorem Entering.carries {r : EStateM.Result Failure Journal Handle} (h : Entering j s r) :
    Carries j (left r) := by
  have hlogger := carries_logger s.logger j
  cases h with
  | opened hrun ho =>
    rw [hrun] at hlogger
    exact hlogger.trans (adds_noting (buildsNone_opening _) _).carries
  | stuck hrun h =>
    rw [hrun] at hlogger
    exact hlogger.trans (adds_noting (buildsNone_added _ _) _).carries
  | unserved hrun =>
    rw [hrun] at hlogger
    exact hlogger

theorem carries_enter (s : Span) : Leaves Carries (enter s) := fun j => (entering s j).carries

theorem carries_leave (opened h : Handle) (failure : Option Failure) :
    Leaves Carries (leave opened h failure) := fun j => by
  rw [run_leave]
  exact (adds_noting (List.forall_mem_append.mpr ⟨buildsNone_report h failure, buildsNone_closing opened⟩)
    j).carries

theorem carries_fail (h : Handle) (reason : String) : Leaves Carries (h.fail reason) :=
  Notes.carries (.write rfl)

theorem carries_add (h : Handle) (key : String) (v : Json) : Leaves Carries (h.add key v) :=
  Notes.carries ((notes_plain v).bind fun _ => .pure _)

end Spans

section Blocks

theorem carries_cons {a : Act} {rest : List Act} (ha : ∀ h j, Carries j (runAct h j a).1)
    (hrest : ∀ h j, Carries j (runActs h j rest).1) (h : Handle) (j : Journal) :
    Carries j (runActs h j (a :: rest)).1 := by
  have hfirst := ha h j
  rw [runActs]
  rcases hrun : runAct h j a with ⟨j', h', _ | e⟩
  · rw [hrun] at hfirst
    exact hfirst.trans (hrest h' j')
  · rw [hrun] at hfirst
    exact hfirst

theorem carries_runSpan {body : List Act} (hbody : ∀ h j, Carries j (runActs h j body).1) (s : Span)
    (j : Journal) : Carries j (runSpan j s body).1 := by
  have henter := carries_enter s j
  rw [runSpan]
  cases hopened : (enter s).run j with
  | error e j' =>
    rw [hopened] at henter
    exact henter
  | ok o j' =>
    rw [hopened] at henter
    dsimp only
    rcases hrun : runActs o j' body with ⟨j'', h, failure⟩
    have hblock := hbody o j'
    have hleave := carries_leave o h failure j''
    rw [hrun] at hblock
    rw [run_leave] at hleave
    dsimp only
    rw [run_leave]
    exact (henter.trans hblock).trans hleave

theorem carries_runActs (acts : List Act) : ∀ h j, Carries j (runActs h j acts).1 := by
  induction acts using acts_induction with
  | nil =>
    intro h j
    rw [runActs]
    exact .refl j
  | add key value rest ih =>
    refine carries_cons (fun h j => ?_) ih
    have hadd := carries_add h key value j
    rw [runAct]
    cases hrun : (h.add key value).run j <;> rw [hrun] at hadd <;> exact hadd
  | fail reason rest ih =>
    refine carries_cons (fun h j => ?_) ih
    rw [runAct]
    exact carries_fail h reason j
  | raise text rest ih =>
    refine carries_cons (fun h j => ?_) ih
    rw [runAct]
    exact .refl j
  | event name rest ih =>
    refine carries_cons (fun h j => ?_) ih
    have hevent := carries_event name (.string "info") none [] j
    rw [runAct]
    cases hrun : (event name (.string "info") none []).run j <;> rw [hrun] at hevent <;> exact hevent
  | span s body rest hbody ih =>
    refine carries_cons (fun h j => ?_) ih
    have hspan := carries_runSpan hbody s j
    rw [runAct]
    rcases hrun : runSpan j s body with ⟨j', e | o⟩ <;> rw [hrun] at hspan <;> exact hspan
  | attempt body rest hbody ih =>
    refine carries_cons (fun h j => ?_) ih
    rw [runAct]
    exact hbody h j

end Blocks

/-- What can be asked of a journal. Spans are run whole, or opened and closed around other requests. -/
inductive Request
  | environment (env : List (String × String))
  | newConfig
  | configure (config : Option ConfigId) (preset : Option String)
  | logger (name : Option String)
  | event (name : String) (level : Json) (logger : Option String) (data : List (String × Json))
  | span (s : Span) (body : List Act)
  | enter (s : Span)
  | leave (opened h : Handle) (failure : Option Failure)

def tried (x : Step α) (j : Journal) : Journal × Option Failure :=
  match x.run j with
  | .ok _ j => (j, none)
  | .error e j => (j, some e)

def answer (j : Journal) : Request → Journal × Option Failure
  | .environment env => ({ j with env }, none)
  | .newConfig => tried newConfig j
  | .configure config preset => tried (configure config preset) j
  | .logger name => tried (logger name) j
  | .event name level l data => tried (event name level l data) j
  | .span s body =>
    match runSpan j s body with
    | (j, .ok _) => (j, none)
    | (j, .error e) => (j, some e)
  | .enter s => tried (enter s) j
  | .leave opened h failure => tried (leave opened h failure) j

def after (j : Journal) (rs : List Request) : Journal := rs.foldl (fun j r => (j.answer r).1) j

/-- The request makes a configuration the active one. -/
def Request.Adopts (j : Journal) : Request → Prop
  | .configure config preset => (j.answer (.configure config preset)).2 = none
  | _ => False

/-- None of these requests makes a configuration the active one. -/
def Undisturbed (j : Journal) : List Request → Prop
  | [] => True
  | r :: rs => ¬ r.Adopts j ∧ Undisturbed (j.answer r).1 rs

theorem tried_left (x : Step α) (j : Journal) : (tried x j).1 = left (x.run j) := by
  rw [tried]
  cases x.run j <;> rfl

/-- A request for a configuration is refused exactly for a reason, and then changes neither the active
configuration nor the loggers; otherwise it sets both anew. -/
theorem answer_configure (j : Journal) (config : Option ConfigId) (preset : Option String) :
    (∃ e, Unfit j.env config preset e ∧ (j.answer (.configure config preset)).2 = some e ∧
      Adds Entry.Configures j (j.answer (.configure config preset)).1) ∨
    (∀ e, ¬ Unfit j.env config preset e) ∧ (j.answer (.configure config preset)).2 = none ∧
      ∃ j', Adds Entry.Configures j j' ∧
        (j.answer (.configure config preset)).1 = j'.adopting (config.getD (j.configs + 1)) := by
  rw [answer, tried]
  rcases configure_cases config preset j with ⟨e, j', hunfit, hadds, hrun⟩ | ⟨hfit, j', hadds, hrun⟩
  · exact .inl ⟨e, hunfit, by rw [hrun], by rw [hrun]; exact hadds⟩
  · exact .inr ⟨hfit, by rw [hrun], j', hadds, by rw [hrun]⟩

theorem current_adopting (c : ConfigId) (j : Journal) : Current (j.adopting c) :=
  ⟨List.forall_mem_nil _, List.nodup_nil, (j.adopting c).entries, [], (List.append_nil _).symm, rfl⟩

theorem Leaves.carries_tried {x : Step α} (h : Leaves Carries x) (j : Journal) :
    Carries j (tried x j).1 := by
  rw [tried_left]
  exact h j

/-- Every request but one for a configuration carries the loggers on. -/
theorem carries_answer {r : Request} (hr : ∀ config preset, r ≠ .configure config preset) (j : Journal) :
    Carries j (j.answer r).1 := by
  cases r with
  | environment env =>
    exact fun hj => ⟨⟨hj.active, hj.names, hj.built⟩, rfl, fun _ => rfl, [], (List.append_nil _).symm,
      (List.append_nil _).symm⟩
  | newConfig =>
    exact Leaves.carries_tried (Notes.carries fun j => (notes_newConfig j).mono fun e => Entry.Configures.buildsNone) j
  | configure config preset => exact absurd rfl (hr config preset)
  | logger name => exact (carries_logger name).carries_tried j
  | event name level l data => exact (carries_event name level l data).carries_tried j
  | span s body =>
    have hspan := carries_runSpan (carries_runActs body) s j
    rw [answer]
    rcases hrun : runSpan j s body with ⟨j', e | o⟩ <;> rw [hrun] at hspan <;> exact hspan
  | enter s => exact (carries_enter s).carries_tried j
  | leave opened h failure => exact (carries_leave opened h failure).carries_tried j

/-- The step: what is kept stays current, and grows unless a configuration is made the active one. -/
theorem Current.answer (hj : Current j) (r : Request) : Current (j.answer r).1 ∧
    (j.answer r).1.defaults = j.defaults ∧ (¬ r.Adopts j → Grows j (j.answer r).1) := by
  by_cases h : ∀ config preset, r ≠ .configure config preset
  · obtain ⟨hcurrent, hgrows⟩ := carries_answer h j hj
    exact ⟨hcurrent, hgrows.defaults, fun _ => hgrows⟩
  · push Not at h
    obtain ⟨config, preset, rfl⟩ := h
    rcases answer_configure j config preset with ⟨e, -, hrefused, hadds⟩ | ⟨-, hnone, j', hadds, hadopted⟩
    · obtain ⟨hcurrent, hgrows⟩ := (hadds.mono fun e => Entry.Configures.buildsNone).carries hj
      exact ⟨hcurrent, hgrows.defaults, fun _ => hgrows⟩
    · rw [hadopted]
      exact ⟨current_adopting _ _, hadds.defaults, fun hno => absurd hnone hno⟩

/-- The run. -/
theorem Current.after (hj : Current j) (rs : List Request) : Current (j.after rs) := by
  induction rs generalizing j with
  | nil => exact hj
  | cons r rs ih => exact ih (hj.answer r).1

theorem Current.defaults_after (hj : Current j) (rs : List Request) : (j.after rs).defaults = j.defaults := by
  induction rs generalizing j with
  | nil => rfl
  | cons r rs ih => exact (ih (hj.answer r).1).trans (hj.answer r).2.1

theorem Current.grows_after (hj : Current j) {rs : List Request} (h : j.Undisturbed rs) :
    Grows j (j.after rs) := by
  induction rs generalizing j with
  | nil => exact .refl j
  | cons r rs ih => exact ((hj.answer r).2.2 h.1).trans (ih (hj.answer r).1 h.2)

theorem BadSize.unique {env : List (String × String)} {e e' : Number.ReadError} (h : BadSize env e)
    (h' : BadSize env e') : e = e' := Except.error.inj (h.2.symm.trans h'.2)

theorem Unfit.unique {env : List (String × String)} {config : Option ConfigId} {preset : Option String}
    {e e' : Failure} (h : Unfit env config preset e) (h' : Unfit env config preset e') : e = e' := by
  cases h with
  | both c hp => cases h'; rfl
  | unknown hp h =>
    cases h' with
    | unknown hp' h' => rfl
    | badSize hp' h' => exact absurd hp' (by simp [hp])
  | badSize hp h =>
    cases h' with
    | unknown hp' h' => exact absurd hp (by simp [hp'])
    | badSize hp' h' => rw [h.unique h']

theorem configure_refused_iff (j : Journal) (config : Option ConfigId) (preset : Option String) (e : Failure) :
    (j.answer (.configure config preset)).2 = some e ↔ Unfit j.env config preset e := by
  rcases answer_configure j config preset with ⟨e', hunfit, hrefused, -⟩ | ⟨hfit, hnone, -⟩
  · rw [hrefused, Option.some.injEq]
    exact ⟨fun h => h ▸ hunfit, fun h => hunfit.unique h⟩
  · rw [hnone]
    exact iff_of_false (fun h => Option.some_ne_none e h.symm) (hfit e)

theorem Serving.kept {l : String} (h : Serving j n (.ok l j')) : n ∈ j'.loggers.map Prod.fst := by
  cases h with
  | cached hc => exact List.mem_map_of_mem (Assoc.mem_of_get? hc)
  | active hn hc => exact List.mem_map_of_mem (Assoc.mem_of_get? (Assoc.get?_put_self _ _ _))
  | first hn hc hgood hadds => exact List.mem_map_of_mem (Assoc.mem_of_get? (Assoc.get?_put_self _ _ _))

theorem logger_kept {name : Option String} (h : (j.answer (.logger name)).2 = none) :
    j.defaults.nameOr name ∈ (j.answer (.logger name)).1.loggers.map Prod.fst := by
  have hserving := serving name j
  rw [answer, tried] at h ⊢
  cases hrun : (logger name).run j with
  | error e j' =>
    rw [hrun] at h
    exact absurd h (Option.some_ne_none e)
  | ok n j' =>
    rw [hrun] at hserving
    exact hserving.kept

/-- Loggers that are kept are never stale. Whatever has been asked of a journal, in whatever
environments: the loggers kept are those built in the last part of its entries, all with the active
configuration. Until a request for a configuration succeeds, at most one logger of a name is built, and
none of a name that has one already. Such a request is refused exactly for a reason, and then changes
neither the active configuration nor the loggers. -/
theorem loggers_current (defaults : Defaults) (env : List (String × String)) (rs : List Request) :
    let j := after { defaults, env } rs
    (∃ old log, j.entries = old ++ log ∧ j.loggers = log.filterMap Entry.built?) ∧
    (∀ e ∈ j.loggers, j.active = some e.2) ∧
    (∀ more, Undisturbed j more → ∃ log, (j.after more).entries = j.entries ++ log ∧
      ((j.loggers ++ log.filterMap Entry.built?).map Prod.fst).Nodup) ∧
    (∀ config preset, let next := j.answer (.configure config preset)
      (∀ e, next.2 = some e ↔ Unfit j.env config preset e) ∧
      (next.2 ≠ none → next.1.active = j.active ∧ next.1.loggers = j.loggers) ∧
      (next.2 = none → next.1.active = some (config.getD (j.configs + 1)) ∧ next.1.loggers = [])) ∧
    ∀ name, let next := j.answer (.logger name)
      next.2 = none → defaults.nameOr name ∈ next.1.loggers.map Prod.fst := by
  intro j
  have hj : Current j := (Current.fresh defaults env).after rs
  have hdefaults : j.defaults = defaults := (Current.fresh defaults env).defaults_after rs
  refine ⟨hj.built, hj.active, fun more hmore => ?_, fun config preset => ?_, fun name hnone => ?_⟩
  · obtain ⟨log, hentries, hloggers⟩ := (hj.grows_after hmore).loggers
    refine ⟨log, hentries, ?_⟩
    rw [← hloggers]
    exact (hj.after more).names
  · refine ⟨configure_refused_iff j config preset, fun hrefused => ?_, fun hnone => ?_⟩
    · rcases answer_configure j config preset with ⟨e, -, -, hadds⟩ | ⟨-, hnone, -⟩
      · exact ⟨hadds.active, hadds.loggers⟩
      · exact absurd hnone hrefused
    · rcases answer_configure j config preset with ⟨e, -, hrefused, -⟩ | ⟨-, -, j', -, hadopted⟩
      · exact absurd (hrefused.symm.trans hnone) (Option.some_ne_none e)
      · rw [hadopted]
        exact ⟨rfl, rfl⟩
  · exact hdefaults ▸ logger_kept hnone

/-- A logger built with a configuration that was given stays current after requests that are refused,
each for a reason of its own, and is not built again with another beside it. -/
theorem loggers_current_after_refusals :
    let j := after {} [.newConfig, .configure (some 1) none, .logger (some "search"),
      .configure (some 1) (some "production"), .configure none (some "staging"),
      .environment [("LOG_BUFFERED", "on"), ("LOG_BUFFER_SIZE", "many")], .configure none none]
    (∀ e ∈ j.loggers, j.active = some e.2) ∧ j.loggers = [("search", 1)] ∧
    Undisturbed j [.configure none none, .logger none, .logger (some "search")] ∧
    ∃ log, (j.after [.configure none none, .logger none, .logger (some "search")]).entries
        = j.entries ++ log ∧ ((j.loggers ++ log.filterMap Entry.built?).map Prod.fst).Nodup := by
  intro j
  obtain ⟨-, hcurrent, hgrows, -⟩ := loggers_current {} [] [.newConfig, .configure (some 1) none,
    .logger (some "search"), .configure (some 1) (some "production"), .configure none (some "staging"),
    .environment [("LOG_BUFFERED", "on"), ("LOG_BUFFER_SIZE", "many")], .configure none none]
  have hrefused : (j.answer (.configure none none)).2 ≠ none := by decide +kernel
  have hundisturbed : Undisturbed j [.configure none none, .logger none, .logger (some "search")] :=
    ⟨hrefused, id, id, trivial⟩
  have hloggers : j.loggers = [("search", 1)] := by decide +kernel
  exact ⟨hcurrent, hloggers, hundisturbed, hgrows _ hundisturbed⟩

end ModalEditing.Journal
