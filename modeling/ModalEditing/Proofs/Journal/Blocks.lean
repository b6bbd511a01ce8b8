import ModalEditing.Proofs.Journal.Brackets
import ModalEditing.Proofs.Maps

namespace ModalEditing.Journal

/-- An entry that belongs to no span: it tells of no context and no scope, and reports no failed span. -/
def Entry.Aside : Entry → Prop
  | .newConfig _ => True
  | .setting _ _ _ => True
  | .newLogger _ _ => True
  | .message _ _ text _ => text ≠ "span::fail"
  | .trace _ _ => True
  | _ => False

theorem Entry.Configures.aside {e : Entry} (h : e.Configures) : e.Aside := by
  cases e <;> trivial

/-- A run of a span and how it went, or of acts with the handle that they leave and why they failed. -/
inductive Ran
  | span (s : Span) (body : List Act) (outcome : Except Failure Handle)
  | acts (h : Handle) (acts : List Act) (left : Handle) (failure : Option Failure)

/-- What runs may leave in the journal: the entries of a span stand between those of its opening and of
its closing, and the spans inside it in the same way between these. -/
inductive Nested (d : Defaults) : Ran → List Entry → Prop
  | span {s : Span} {body : List Act} {o h : Handle} {failure : Option Failure} {notes inner : List Entry}
    (hnotes : ∀ e ∈ notes, e.Aside) (ho : Opens d s o) (hinner : Nested d (.acts o body h failure) inner)
    (hkeys : (h.metadata.map Prod.fst).Nodup) :
    Nested d (.span s body (failure.elim (.ok h) .error))
      (notes ++ o.opening ++ inner ++ h.report failure ++ o.closing)
  -- a value cannot be written: the block is not run, and nothing of what was added is taken back
  | stuck {s : Span} {body : List Act} {given : List (String × String)} {e : Number.WriteError}
    {notes : List Entry} (hnotes : ∀ e ∈ notes, e.Aside) (h : StuckAfter s.fields given e) :
    Nested d (.span s body (.error (.unwritable e))) (notes ++ added (d.nameOr s.logger) given)
  | done {h : Handle} : Nested d (.acts h [] h none) []
  | learnt {h h' : Handle} {key text : String} {v : Json} {rest : List Act} {failure : Option Failure}
    {log : List Entry} (hv : v.plain = .ok text)
    (hrest : Nested d (.acts { h with metadata := Assoc.put key text h.metadata } rest h' failure) log) :
    Nested d (.acts h (.add key v :: rest) h' failure) log
  | unwritable {h : Handle} {key : String} {v : Json} {e : Number.WriteError} {rest : List Act}
    (hv : v.plain = .error e) : Nested d (.acts h (.add key v :: rest) h (some (.unwritable e))) []
  | reported {h h' : Handle} {reason : String} {rest : List Act} {failure : Option Failure}
    {log : List Entry} (hrest : Nested d (.acts h rest h' failure) log) :
    Nested d (.acts h (.fail reason :: rest) h' failure) (h.failureReport reason :: log)
  | raised {h : Handle} {text : String} {rest : List Act} :
    Nested d (.acts h (.raise text :: rest) h (some (.raised text))) []
  | told {h h' : Handle} {name : String} {rest : List Act} {failure : Option Failure}
    {notes log : List Entry} (hnotes : ∀ e ∈ notes, e.Aside)
    (hrest : Nested d (.acts h rest h' failure) log) :
    Nested d (.acts h (.event name :: rest) h' failure) (notes ++ log)
  -- what a span inside has learnt is its own; only its failure comes out
  | left {h h' inner : Handle} {s : Span} {body rest : List Act} {failure : Option Failure}
    {log log' : List Entry} (hspan : Nested d (.span s body (.ok inner)) log)
    (hrest : Nested d (.acts h rest h' failure) log') :
    Nested d (.acts h (.span s body :: rest) h' failure) (log ++ log')
  | escaped {h : Handle} {s : Span} {body rest : List Act} {e : Failure} {log : List Entry}
    (hspan : Nested d (.span s body (.error e)) log) :
    Nested d (.acts h (.span s body :: rest) h (some e)) log
  | attempted {h between h' : Handle} {body rest : List Act} {dropped failure : Option Failure}
    {log log' : List Entry} (hbody : Nested d (.acts h body between dropped) log)
    (hrest : Nested d (.acts between rest h' failure) log') :
    Nested d (.acts h (.attempt body :: rest) h' failure) (log ++ log')

variable {j j' j'' : Journal} {s : Span} {o h h' : Handle} {d : Defaults} {body acts : List Act}
  {failure : Option Failure} {log log' notes : List Entry}

theorem Opens.keys (ho : Opens d s o) : o.metadata.map Prod.fst = s.keys := by
  have hkeys : ∀ {fields texts}, Worded fields texts → texts.map Prod.fst = fields.map Prod.fst := by
    intro fields texts h
    induction h with
    | nil => rfl
    | cons hkey hrest ih => rw [List.map_cons, List.map_cons, ih, hkey.1]
  exact hkeys ho.metadata

theorem Opens.nodup (ho : Opens d s o) : (o.metadata.map Prod.fst).Nodup :=
  ho.keys ▸ Assoc.nodup_ofList s.metadata

/-- What becomes known in a span is kept under distinct keys. -/
theorem Nested.nodup (hn : Nested d (.acts h acts h' failure) log) (hkeys : (h.metadata.map Prod.fst).Nodup) :
    (h'.metadata.map Prod.fst).Nodup := by
  generalize hr : Ran.acts h acts h' failure = r at hn
  induction hn generalizing h acts h' failure with
  | span => cases hr
  | stuck => cases hr
  | done => cases hr; exact hkeys
  | learnt hv hrest ih => cases hr; exact ih (Assoc.nodup_put hkeys) rfl
  | unwritable => cases hr; exact hkeys
  | reported hrest ih => cases hr; exact ih hkeys rfl
  | raised => cases hr; exact hkeys
  | told hnotes hrest ih => cases hr; exact ih hkeys rfl
  | left hspan hrest _ ih => cases hr; exact ih hkeys rfl
  | escaped => cases hr; exact hkeys
  | attempted hbody hrest ihbody ih => cases hr; exact ih (ihbody hkeys rfl) rfl

/-- What a failure report says: the reason, the component where there is one, and what has become known,
which goes before the name of the span. -/
theorem get?_payload {h : Handle} (hkeys : (h.metadata.map Prod.fst).Nodup) (reason k : String) :
    Assoc.get? k (h.payload [("reason", reason)]) =
      if k = "reason" then some reason
      else if k = "component" ∧ h.scope? ≠ none then h.scope?
      else (Assoc.get? k h.metadata).or (if k = "span" then some h.name else none) := by
  have hknown : Assoc.get? k (Assoc.putAll [("span", h.name)] h.metadata)
      = (Assoc.get? k h.metadata).or (if k = "span" then some h.name else none) := by
    rw [Assoc.get?_putAll, Assoc.ofList_of_nodup hkeys, Assoc.get?, Assoc.get?]
    simp only [eq_comm]
  rw [Handle.payload]
  by_cases hreason : k = "reason"
  · subst hreason
    rw [if_pos rfl]
    exact Assoc.get?_put_self _ _ _
  · rw [if_neg hreason]
    refine (Assoc.get?_put_of_ne (Ne.symm hreason) _ _).trans ?_
    cases hc : h.scope? with
    | none => rw [if_neg fun hk => hk.2 rfl]; exact hknown
    | some c =>
      by_cases hcomponent : k = "component"
      · subst hcomponent
        rw [if_pos ⟨rfl, Option.some_ne_none c⟩]
        exact Assoc.get?_put_self _ _ _
      · rw [if_neg fun hk => hcomponent hk.1]
        exact (Assoc.get?_put_of_ne (Ne.symm hcomponent) _ _).trans hknown

/-- A configuration is active now, and these entries have come in. -/
structure Reaches (j : Journal) (log : List Entry) (j' : Journal) : Prop where
  defaults : j'.defaults = j.defaults
  active : j'.active ≠ none
  entries : j'.entries = j.entries ++ log

theorem Reaches.trans (h : Reaches j log j') (h' : Reaches j' log' j'') : Reaches j (log ++ log') j'' :=
  ⟨h'.defaults.trans h.defaults, h'.active, by rw [h'.entries, h.entries, List.append_assoc]⟩

theorem Reaches.noting (h : Reaches j log j') (es : List Entry) : Reaches j (log ++ es) (j'.noting es) :=
  h.trans ⟨rfl, h.active, rfl⟩

theorem Reaches.refl (hj : j.active ≠ none) : Reaches j [] j := ⟨rfl, hj, (List.append_nil _).symm⟩

/-- More entries have come in, none of which belongs to a span. -/
def Tells (j j' : Journal) : Prop := ∃ notes, j'.entries = j.entries ++ notes ∧ ∀ e ∈ notes, e.Aside

theorem Tells.trans (h : Tells j j') (h' : Tells j' j'') : Tells j j'' := by
  obtain ⟨notes, hnotes, haside⟩ := h
  obtain ⟨notes', hnotes', haside'⟩ := h'
  refine ⟨notes ++ notes', ?_, List.forall_mem_append.mpr ⟨haside, haside'⟩⟩
  rw [hnotes', hnotes, List.append_assoc]

theorem Adds.tells (h : Adds Entry.Aside j j') : Tells j j' := h.entries

theorem Serving.tells {n : String} {r : EStateM.Result Failure Journal String} (h : Serving j n r) :
    Tells j (left r) := by
  have hbuilding (j : Journal) (c : ConfigId) : Tells j (j.building n c) :=
    ⟨[.newLogger n c], rfl, List.forall_mem_singleton.mpr trivial⟩
  cases h with
  | cached h => exact ⟨[], (List.append_nil _).symm, List.forall_mem_nil _⟩
  | active h hc => exact hbuilding _ _
  | first h hc hgood hadds =>
    have hadopting (j : Journal) (c : ConfigId) : Tells j (j.adopting c) :=
      ⟨[.setting c "with_profiling" (.bool true)], rfl, List.forall_mem_singleton.mpr trivial⟩
    exact ((hadds.mono fun e => Entry.Configures.aside).tells.trans (hadopting _ _)).trans (hbuilding _ _)
  | failed h hc hbad hadds => exact (hadds.mono fun e => Entry.Configures.aside).tells

theorem event_ne_fail (name : String) : "event::" ++ name ≠ "span::fail" := by
  intro h
  have hchars := congrArg String.toList h
  simp at hchars

theorem Entry.Sends.aside {text : String} {e : Entry} (h : e.Sends text) (hne : text ≠ "span::fail") :
    e.Aside := by
  cases e with
  | message l level t data => exact fun ht => hne (h.symm.trans ht)
  | trace l t => trivial
  | _ => exact h.elim

/-- A logger is served, and from then on a configuration is active; or it is refused for a bad size. -/
theorem serving_cases (name : Option String) (hj : j.active = none → j.loggers = []) :
    (∃ notes j', (logger name).run j = .ok (j.defaults.nameOr name) j' ∧ (∀ e ∈ notes, e.Aside) ∧
      Reaches j notes j') ∨
    ∃ e notes j', j.active = none ∧ BadSize j.env e ∧ (logger name).run j = .error (.badBufferSize e) j' ∧
      (∀ e ∈ notes, e.Aside) ∧ j'.entries = j.entries ++ notes := by
  have hserving := serving name j
  have hdefaults := hserving.defaults
  obtain ⟨notes, hentries, hnotes⟩ := hserving.tells
  generalize (logger name).run j = r at hserving hdefaults hentries
  cases hserving with
  | cached h =>
    refine .inl ⟨notes, _, rfl, hnotes, hdefaults, fun hc => ?_, hentries⟩
    rw [hj hc] at h
    cases h
  | @active c h hc =>
    have hactive : j.active ≠ none := fun hnone => Option.some_ne_none c (hc.symm.trans hnone)
    exact .inl ⟨notes, _, rfl, hnotes, hdefaults, hactive, hentries⟩
  | first h hc hgood hadds => exact .inl ⟨notes, _, rfl, hnotes, hdefaults, Option.some_ne_none _, hentries⟩
  | failed h hc hbad hadds => exact .inr ⟨_, notes, _, hc, hbad, rfl, hnotes, hentries⟩

/-- Where a configuration is active, every logger can be had. -/
theorem run_logger (name : Option String) (hj : j.active ≠ none) :
    ∃ notes j', (logger name).run j = .ok (j.defaults.nameOr name) j' ∧ (∀ e ∈ notes, e.Aside) ∧
      Reaches j notes j' := by
  rcases serving_cases name fun hc => absurd hc hj with hserved | ⟨_, _, _, hc, -⟩
  · exact hserved
  · exact absurd hc hj

theorem run_event (name : String) (hj : j.active ≠ none) :
    ∃ notes j', (event name (.string "info") none []).run j = .ok () j' ∧ (∀ e ∈ notes, e.Aside) ∧
      Reaches j notes j' := by
  obtain ⟨notes, j', hrun, hnotes, hreach⟩ := run_logger none hj
  generalize j.defaults.nameOr none = l at hrun
  have hsent : (send l (.string "info") ("event::" ++ name) [("event", .string name)]).run j'
      = .ok () (j'.noting [.message l "info" ("event::" ++ name) [("event", name)]]) := by
    have hlevel : levels.contains (Text.lower "info") = true := by decide +kernel
    simp only [send, EStateM.run_bind, run_plain_ok (plain_string "info"), hlevel, if_true]
    simp only [plainPairs, List.mapM_cons, List.mapM_nil, EStateM.run_bind, run_plain_ok (plain_string name)]
    rfl
  refine ⟨_, _, ?_, ?_, hreach.noting [.message l "info" ("event::" ++ name) [("event", name)]]⟩
  · rw [event, EStateM.run_bind, hrun]
    exact hsent
  · exact List.forall_mem_append.mpr ⟨hnotes, List.forall_mem_singleton.mpr (event_ne_fail name)⟩

/-- What running these acts leaves in the journal is nested, and a configuration stays active. -/
def Nests (acts : List Act) : Prop := ∀ h j, j.active ≠ none →
  ∃ log, Reaches j log (runActs h j acts).1 ∧
    Nested j.defaults (.acts h acts (runActs h j acts).2.1 (runActs h j acts).2.2) log

/-- A span whose logger was served, on acts that nest. -/
theorem nested_runSpan (hbody : Nests body)
    (hrun : (logger s.logger).run j = .ok (j.defaults.nameOr s.logger) j') (hnotes : ∀ e ∈ notes, e.Aside)
    (hreach : Reaches j notes j') : ∃ log, Reaches j log (runSpan j s body).1 ∧
      Nested j.defaults (.span s body (runSpan j s body).2) log := by
  have hentering := entering s j
  rw [runSpan]
  generalize (enter s).run j = r at hentering
  cases hentering with
  | @opened o j₁ hrun' ho =>
    obtain ⟨-, rfl⟩ := EStateM.Result.ok.inj (hrun.symm.trans hrun')
    have hopened := hreach.noting o.opening
    obtain ⟨inner, hinner, hnested⟩ := hbody o _ hopened.active
    rw [hopened.defaults] at hnested
    rcases hblock : runActs o (j'.noting o.opening) body with ⟨j₂, h, failure⟩
    rw [hblock] at hinner hnested
    -- closing leaves its entries whatever has become of the block
    have hclosed := (hopened.trans hinner).noting (h.report failure ++ o.closing)
    rw [← List.append_assoc] at hclosed
    dsimp only
    rw [hblock]
    dsimp only
    rw [run_leave]
    refine ⟨_, hclosed, ?_⟩
    have hspan := Nested.span hnotes ho hnested (hnested.nodup ho.nodup)
    cases failure <;> exact hspan
  | @stuck l given e j₁ hrun' h =>
    obtain ⟨rfl, rfl⟩ := EStateM.Result.ok.inj (hrun.symm.trans hrun')
    exact ⟨_, hreach.noting (added (j.defaults.nameOr s.logger) given), .stuck hnotes h⟩
  | unserved hrun' => cases hrun.symm.trans hrun'

theorem nests (acts : List Act) : Nests acts := by
  -- on the acts, those of the blocks inside first; an active configuration carries it, since with one no
  -- logger is refused
  induction acts using acts_induction with
  | nil =>
    intro h j hj
    rw [runActs]
    exact ⟨[], .refl hj, .done⟩
  | add key v rest ih =>
    intro h j hj
    rw [runActs, runAct, Handle.add, EStateM.run_bind]
    cases hv : v.plain with
    | ok text =>
      obtain ⟨log, hreach, hnested⟩ := ih { h with metadata := Assoc.put key text h.metadata } j hj
      rw [run_plain_ok hv]
      exact ⟨log, hreach, .learnt hv hnested⟩
    | error e =>
      rw [run_plain_error hv]
      exact ⟨[], .refl hj, .unwritable hv⟩
  | fail reason rest ih =>
    intro h j hj
    obtain ⟨log, hreach, hnested⟩ := ih h (j.noting [h.failureReport reason]) hj
    rw [runActs, runAct, Handle.fail, run_write]
    exact ⟨_, ((Reaches.refl hj).noting _).trans hreach, .reported hnested⟩
  | raise text rest ih =>
    intro h j hj
    rw [runActs, runAct]
    exact ⟨[], .refl hj, .raised⟩
  | event name rest ih =>
    intro h j hj
    obtain ⟨notes, j', hrun, hnotes, hsent⟩ := run_event name hj
    obtain ⟨log, hreach, hnested⟩ := ih h j' hsent.active
    rw [hsent.defaults] at hnested
    rw [runActs, runAct, hrun]
    exact ⟨_, hsent.trans hreach, .told hnotes hnested⟩
  | span s body rest hbody ih =>
    intro h j hj
    obtain ⟨notes, j₁, hrun, hnotes, hserved⟩ := run_logger s.logger hj
    obtain ⟨log, hspan, hnested⟩ := nested_runSpan hbody hrun hnotes hserved
    rw [runActs, runAct]
    rcases hr : runSpan j s body with ⟨j', e | inner⟩
    · rw [hr] at hspan hnested
      exact ⟨log, hspan, .escaped hnested⟩
    · rw [hr] at hspan hnested
      obtain ⟨log', hreach, hrest⟩ := ih h j' hspan.active
      rw [hspan.defaults] at hrest
      exact ⟨_, hspan.trans hreach, .left hnested hrest⟩
  | attempt body rest hbody ih =>
    intro h j hj
    obtain ⟨log, hblock, hnested⟩ := hbody h j hj
    rw [runActs, runAct]
    rcases hr : runActs h j body with ⟨j', between, dropped⟩
    rw [hr] at hblock hnested
    obtain ⟨log', hreach, hrest⟩ := ih between j' hblock.active
    rw [hblock.defaults] at hrest
    exact ⟨_, hblock.trans hreach, .attempted hnested hrest⟩

/-- A span is run, or its logger is refused before anything is known of it. -/
theorem runSpan_cases (hj : j.active = none → j.loggers = []) (s : Span) (body : List Act) :
    ∃ log, (runSpan j s body).1.entries = j.entries ++ log ∧
      (Nested j.defaults (.span s body (runSpan j s body).2) log ∨ ∃ e, j.active = none ∧ BadSize j.env e ∧
        (runSpan j s body).2 = .error (.badBufferSize e) ∧ ∀ e ∈ log, e.Aside) := by
  rcases serving_cases s.logger hj with
    ⟨notes, j', hrun, hnotes, hserved⟩ | ⟨e, notes, j', hnone, hbad, hrun, hnotes, hentries⟩
  · obtain ⟨log, hreach, hnested⟩ := nested_runSpan (nests body) hrun hnotes hserved
    exact ⟨log, hreach.entries, .inl hnested⟩
  · have hrefused : runSpan j s body = (j', .error (.badBufferSize e)) := by
      rw [runSpan, enter, EStateM.run_bind, hrun]
    rw [hrefused]
    exact ⟨notes, hentries, .inr ⟨e, hnone, hbad, rfl, hnotes⟩⟩

end ModalEditing.Journal
