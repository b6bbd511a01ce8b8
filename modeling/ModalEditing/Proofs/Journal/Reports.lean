import ModalEditing.Proofs.Journal.Context

namespace ModalEditing

/-- An event for this logger, of a known level and with data that can be written out. -/
inductive Report.Sayable (l : Option String) : Report → Prop
  | event {name level : String} {data : List (String × Json)} {texts : List (String × String)}
    (level_mem : Journal.levels.contains (Text.lower level) = true) (worded : Journal.Worded data texts) :
    Sayable l (.event name level l data)

namespace Journal
variable {j j' : Journal} {s : Span} {o : Handle} {l : Option String} {r : Report} {rs rs' inner : List Report}
  {fields learnt : List (String × Json)} {texts : List (String × String)} {e : Failure}
  {notes : List Entry}

/-- No logger can be had: no configuration is active, and that of the environment is refused. -/
structure Mute (j : Journal) (e : Number.ReadError) : Prop where
  inactive : j.active = none
  badSize : BadSize j.env e

/-- A logger that is kept is given as it is. -/
theorem run_logger_kept {name : Option String} (h : j.defaults.nameOr name ∈ j.loggers.map Prod.fst) :
    (logger name).run j = .ok (j.defaults.nameOr name) j := by
  have hserving := serving name j
  generalize (logger name).run j = r at hserving ⊢
  cases hserving with
  | cached hc => rfl
  | active hn hc => exact absurd h (Assoc.not_mem_of_get? hn)
  | first hn hc hgood hadds => exact absurd h (Assoc.not_mem_of_get? hn)
  | failed hn hc hbad hadds => exact absurd h (Assoc.not_mem_of_get? hn)

theorem run_plainPairs (h : Worded fields texts) (j : Journal) :
    (plainPairs fields).run j = .ok texts j := by
  induction h with
  | nil => rfl
  | @cons f t fields texts hf hrest ih =>
    have htail : (List.mapM (fun f => return (f.1, ← plain f.2)) fields : Step _).run j = .ok texts j := ih
    rw [plainPairs, List.mapM_cons]
    simp only [EStateM.run_bind, run_plain_ok hf.2, EStateM.run_pure, htail, hf.1]

theorem Worded.put {k text : String} {v : Json} (h : Worded fields texts) (hv : v.plain = .ok text) :
    Worded (Assoc.put k v fields) (Assoc.put k text texts) := by
  induction h with
  | nil => exact .cons ⟨rfl, hv⟩ .nil
  | cons ht hrest ih =>
    rw [Assoc.put, Assoc.put, ← ht.1]
    split
    · exact .cons ⟨rfl, hv⟩ hrest
    · exact .cons ⟨rfl, ht.2⟩ ih

theorem Worded.putAll {known : List (String × Json)} {old : List (String × String)} (h : Worded known old)
    (hmore : Worded fields texts) : Worded (Assoc.putAll known fields) (Assoc.putAll old texts) := by
  induction hmore generalizing known old with
  | nil => exact h
  | cons ht hrest ih =>
    rw [Assoc.putAll, Assoc.putAll, List.foldl_cons, List.foldl_cons, ← ht.1]
    exact ih (h.put ht.2)

/-- Where its logger is kept, an event is taken with a single message. -/
theorem run_put_sayable (hr : r.Sayable l) (hkept : j.defaults.nameOr l ∈ j.loggers.map Prod.fst) :
    ∃ note : Entry, note.Aside ∧ (put r).run j = .ok () (j.noting [note]) := by
  obtain @⟨name, level, data, texts, hlevel, hdata⟩ := hr
  have hpayload : Worded (Assoc.putAll [("event", .string name)] data)
      (Assoc.putAll [("event", name)] texts) :=
    Worded.putAll (.cons ⟨rfl, plain_string name⟩ .nil) hdata
  refine ⟨.message (j.defaults.nameOr l) (Text.lower level) ("event::" ++ name)
    (Assoc.putAll [("event", name)] texts), event_ne_fail name, ?_⟩
  rw [put, event, EStateM.run_bind, run_logger_kept hkept]
  dsimp only
  rw [send, EStateM.run_bind, run_plain_ok (plain_string level)]
  simp only [hlevel, if_true, EStateM.run_bind, run_plainPairs hpayload]
  rfl

theorem putAll_nil (j : Journal) : j.putAll [] = (j.noting [], none) := by
  rw [noting_nil]
  rfl

theorem putAll_append (h : j.putAll rs = (j', none)) : j.putAll (rs ++ rs') = j'.putAll rs' := by
  induction rs generalizing j with
  | nil =>
    cases h
    rfl
  | cons r rs ih =>
    rw [List.cons_append, putAll]
    rw [putAll] at h
    cases hr : (put r).run j with
    | ok a j₁ =>
      rw [hr] at h
      exact ih h
    | error e j₁ =>
      rw [hr] at h
      cases h

theorem putAll_sayable (hinner : ∀ r ∈ inner, r.Sayable l)
    (hkept : j.defaults.nameOr l ∈ j.loggers.map Prod.fst) :
    ∃ notes : List Entry, (∀ e ∈ notes, e.Aside) ∧ j.putAll inner = (j.noting notes, none) := by
  induction inner generalizing j with
  | nil => exact ⟨[], List.forall_mem_nil _, putAll_nil j⟩
  | cons r inner ih =>
    obtain ⟨hr, hrest⟩ := List.forall_mem_cons.mp hinner
    obtain ⟨note, haside, hput⟩ := run_put_sayable hr hkept
    obtain ⟨notes, hnotes, hall⟩ := ih (j := j.noting [note]) hrest hkept
    refine ⟨note :: notes, List.forall_mem_cons.mpr ⟨haside, hnotes⟩, ?_⟩
    rw [putAll, hput]
    dsimp only
    rw [hall, noting_noting]
    rfl

theorem carries_reopened (s : Span) (learnt : List (String × Json)) :
    Leaves Carries (reopened s learnt) := by
  rw [reopened]
  refine Leaves.bind Carries.trans (carries_logger s.logger) fun l => Notes.carries ?_
  exact (notes_plainPairs _).bind fun metadata => (notes_plainPairs _).bind fun more => .pure _

theorem carries_put (r : Report) : Leaves Carries (put r) := by
  cases r with
  | event name level l data => exact carries_event name _ l data
  | enter s => exact Leaves.bind Carries.trans (carries_enter s) fun o => Notes.carries (.pure ())
  | leave s learnt failure =>
    exact Leaves.bind Carries.trans (carries_reopened s learnt) fun hs => carries_leave hs.1 hs.2 _

theorem carries_putAll (rs : List Report) (j : Journal) : Carries j (j.putAll rs).1 := by
  induction rs generalizing j with
  | nil => exact .refl j
  | cons r rs ih =>
    have hput := carries_put r j
    rw [putAll]
    cases hr : (put r).run j with
    | ok a j₁ =>
      rw [hr] at hput
      exact hput.trans (ih j₁)
    | error e j₁ =>
      rw [hr] at hput
      exact hput

theorem Serving.not_mute {n l : String} (h : Serving j n (.ok l j')) (hj : Current j) (e : Number.ReadError) :
    ¬ j.Mute e := by
  intro hmute
  cases h with
  | cached hc => simp [hj.loggers_eq_nil hmute.inactive, Assoc.get?] at hc
  | active hn hc => cases hmute.inactive.symm.trans hc
  | first hn hc hgood hadds => exact hgood e hmute.badSize

/-- How opening a span goes whose data can be written out. -/
inductive Opening (j : Journal) (s : Span) : EStateM.Result Failure Journal Handle → Prop
  | opened {o : Handle} {j' : Journal} (served : ∀ n, ¬ j.Mute n) (defaults : j'.defaults = j.defaults)
    (opens : Opens j'.defaults s o)
    (kept : j'.defaults.nameOr s.logger ∈ j'.loggers.map Prod.fst) (active : j'.active ≠ none)
    (tells : Tells j j') : Opening j s (.ok o (j'.noting o.opening))
  | mute {n : Number.ReadError} {j' : Journal} (mute : j.Mute n) (adds : Adds Entry.Configures j j') :
    Opening j s (.error (.badBufferSize n) j')

theorem Current.opening (hj : Current j) (hs : ∃ texts, Worded s.fields texts) :
    Opening j s ((enter s).run j) := by
  obtain ⟨texts, htexts⟩ := hs
  have hentering := entering s j
  have hserving := serving s.logger j
  generalize (enter s).run j = r at hentering ⊢
  cases hentering with
  | @opened o j₁ hrun ho =>
    rw [hrun] at hserving
    have hkept := hserving.kept
    have hdefaults : j₁.defaults = j.defaults := hserving.defaults
    obtain ⟨notes, j₂, hrun', -, hreach⟩ | ⟨n, notes, j₂, hnone, hbad, hrun', -⟩ :=
      serving_cases s.logger hj.loggers_eq_nil
    · obtain ⟨-, rfl⟩ := EStateM.Result.ok.inj (hrun.symm.trans hrun')
      rw [← hdefaults] at ho hkept
      exact .opened (hserving.not_mute hj) hdefaults ho hkept hreach.active hserving.tells
    · cases hrun.symm.trans hrun'
  | stuck hrun hstuck => exact absurd htexts (not_worded_of_stuck hstuck)
  | unserved hrun =>
    rw [hrun] at hserving
    cases hserving with
    | failed h hc hbad hadds => exact .mute ⟨hc, hbad⟩ hadds

/-- The handle of an open span can be told from its report. -/
theorem run_reopened (hkept : j.defaults.nameOr s.logger ∈ j.loggers.map Prod.fst)
    (ho : Opens j.defaults s o) (hlearnt : Worded learnt texts) : (reopened s learnt).run j
      = .ok (o, { o with metadata := Assoc.putAll o.metadata texts }) j := by
  obtain ⟨l, name, component, metadata⟩ := o
  obtain ⟨rfl, rfl, rfl, hmetadata⟩ := ho
  rw [reopened, EStateM.run_bind, run_logger_kept hkept, ← Span.fields]
  simp only [EStateM.run_bind, run_plainPairs hmetadata, run_plainPairs hlearnt]
  rfl

/-- What is reported during a span stands between its opening and its closing. -/
theorem putAll_around (hopen : (enter s).run j = .ok o j') (ho : Opens j'.defaults s o)
    (hkept : j'.defaults.nameOr s.logger ∈ j'.loggers.map Prod.fst) (hlearnt : Worded learnt texts)
    (failure : Option String) (hinner : j'.putAll inner = (j'.noting notes, none)) :
    j.putAll (s.around learnt failure inner) = (j'.noting
      (notes ++ ({ o with metadata := Assoc.putAll o.metadata texts } : Handle).report (failure.map .raised)
        ++ o.closing), none) := by
  have henter : (put (.enter s)).run j = .ok () j' := by
    rw [put, EStateM.run_bind, hopen]
    rfl
  rw [Span.around, List.cons_append, putAll, henter]
  dsimp only
  rw [putAll_append hinner, putAll, put, EStateM.run_bind, run_reopened (j := j'.noting notes) hkept ho hlearnt]
  dsimp only
  rw [run_leave, noting_noting, ← List.append_assoc]
  rfl

theorem run_put_enter_error (h : (enter s).run j = .error e j') :
    (put (.enter s)).run j = .error e j' := by
  rw [put, EStateM.run_bind, h]

/-- Nothing more is reported of a span that cannot be opened. -/
theorem putAll_around_error (h : (enter s).run j = .error e j') (failure : Option String) :
    j.putAll (s.around learnt failure inner) = (j', some e) := by
  rw [Span.around, List.cons_append, putAll, run_put_enter_error h]

theorem runActs_adds (h : Worded learnt texts) (o : Handle) (j : Journal) (rest : List Act) :
    runActs o j (learnt.map (fun f => .add f.1 f.2) ++ rest)
      = runActs { o with metadata := Assoc.putAll o.metadata texts } j rest := by
  induction h generalizing o with
  | nil => rfl
  | @cons f t learnt texts hf hrest ih =>
    have hadd : runAct o j (.add f.1 f.2) = (j, { o with metadata := Assoc.put t.1 t.2 o.metadata }, none) := by
      rw [runAct, Handle.add, EStateM.run_bind, run_plain_ok hf.2, hf.1]
      rfl
    rw [List.map_cons, List.cons_append, runActs, hadd]
    exact ih _

/-- A span that is only reported leaves what running it leaves, also where it cannot be opened. -/
theorem Current.runSpan_reported (hj : Current j) (hs : ∃ texts, Worded s.fields texts)
    (hlearnt : Worded learnt texts) (failure : Option String) :
    (runSpan j s (learnt.map (fun f => .add f.1 f.2) ++ (failure.map .raise).toList)).1
      = (j.putAll (s.around learnt failure)).1 := by
  have hopening := hj.opening hs
  generalize hopen : (enter s).run j = r at hopening
  cases hopening with
  | mute hmute hadds => rw [putAll_around_error hopen, runSpan, hopen]
  | @opened o j' served hdefaults opens kept active tells =>
    rw [putAll_around hopen opens kept hlearnt failure (putAll_nil _), runSpan, hopen]
    dsimp only
    rw [runActs_adds hlearnt]
    cases failure with
    | none =>
      rw [Option.map_none, Option.toList_none, runActs]
      dsimp only
      rw [run_leave]
      rfl
    | some text =>
      rw [Option.map_some, Option.toList_some, runActs, runAct]
      dsimp only
      rw [run_leave]
      rfl

section Contexts
variable {log : String}

theorem Tells.context_eq (h : Tells j j') (log : String) : context log j'.entries = context log j.entries := by
  obtain ⟨notes, hnotes, haside⟩ := h
  rw [hnotes, context_append, contextFrom_spared fun e he => (haside e he).spares log]

/-- A span that is reported with events inside it leaves the context of each logger as it was, if the keys
of the span are new there. One that cannot be opened does so in any case. -/
theorem Current.context_around (hj : Current j) (hs : ∃ texts, Worded s.fields texts)
    (hlearnt : ∃ texts, Worded learnt texts) (failure : Option String)
    (hinner : ∀ r ∈ inner, r.Sayable s.logger)
    (hnew : ∀ k ∈ s.keysOn j.defaults log, k ∉ (context log j.entries).map Prod.fst) :
    context log (j.putAll (s.around learnt failure inner)).1.entries = context log j.entries := by
  obtain ⟨texts, hlearnt⟩ := hlearnt
  have hopening := hj.opening hs
  generalize hopen : (enter s).run j = r at hopening
  cases hopening with
  | mute hmute hadds =>
    rw [putAll_around_error hopen]
    exact (hadds.mono fun e => Entry.Configures.aside).tells.context_eq log
  | @opened o j' served hdefaults opens kept active tells =>
    obtain ⟨notes, haside, hnotes⟩ := putAll_sayable (j := j'.noting o.opening) hinner kept
    have hkeys : ((o.contextOn log).map Prod.fst).Disjoint ((context log j.entries).map Prod.fst) := by
      rw [contextOn_keys opens, hdefaults]
      exact List.disjoint_left.mpr hnew
    have hopened : context log (j'.noting o.opening).entries = context log j.entries ++ o.contextOn log := by
      rw [noting, context_append, tells.context_eq, context_opened opens.nodup hkeys]
    rw [putAll_around hopen opens kept hlearnt failure hnotes, noting, context_append, hopened,
      contextFrom_append, contextFrom_append, contextFrom_spared fun e he => (haside e he).spares log,
      contextFrom_report, context_closed hkeys]

end Contexts

end Journal
end ModalEditing
