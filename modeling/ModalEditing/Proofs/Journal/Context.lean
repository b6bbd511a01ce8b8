import ModalEditing.Proofs.Journal.Blocks
import ModalEditing.Proofs.Journal.Loggers

namespace ModalEditing

/-- The keys that a span adds to the context of this logger. -/
def Span.keysOn (d : Journal.Defaults) (l : String) (s : Span) : List String :=
  if d.nameOr s.logger = l then s.keys else []

namespace Journal

def Entry.adjust (l : String) (m : List (String × String)) : Entry → List (String × String)
  | .addContext l' k v => if l' = l then Assoc.put k v m else m
  | .removeContext l' k => if l' = l then Assoc.erase k m else m
  | _ => m

def contextFrom (l : String) (m : List (String × String)) (es : List Entry) : List (String × String) :=
  es.foldl (Entry.adjust l) m

/-- The context of a logger after these entries. -/
def context (l : String) (es : List Entry) : List (String × String) := contextFrom l [] es

mutual
/-- A span on the logger, and each inside it, can be opened and uses none of the keys in use where it
stands, those of the spans around it among them. -/
def Act.Apart (d : Defaults) (l : String) (used : List String) : Act → Prop
  | .span s body =>
    (d.nameOr s.logger = l → (∃ texts, Worded s.fields texts) ∧ ∀ k ∈ s.keys, k ∉ used) ∧
      Act.AllApart d l (used ++ s.keysOn d l) body
  | .attempt body => Act.AllApart d l used body
  | _ => True

def Act.AllApart (d : Defaults) (l : String) (used : List String) : List Act → Prop
  | [] => True
  | a :: rest => a.Apart d l used ∧ Act.AllApart d l used rest
end

def Ran.Apart (d : Defaults) (l : String) (used : List String) : Ran → Prop
  | .span s body _ => (Act.span s body).Apart d l used
  | .acts _ block _ _ => Act.AllApart d l used block

variable {d : Defaults} {l : String} {s : Span} {o : Handle} {m texts given : List (String × String)}
  {fields : List (String × Json)} {e : Number.WriteError} {log notes : List Entry} {j j' : Journal}

theorem contextFrom_append (l : String) (m : List (String × String)) (es es' : List Entry) :
    contextFrom l m (es ++ es') = contextFrom l (contextFrom l m es) es' := List.foldl_append

theorem context_append (l : String) (es es' : List Entry) :
    context l (es ++ es') = contextFrom l (context l es) es' := contextFrom_append l [] es es'

def Entry.Spares (l : String) (e : Entry) : Prop := ∀ m, e.adjust l m = m

theorem contextFrom_spared {es : List Entry} (h : ∀ e ∈ es, e.Spares l) (m : List (String × String)) :
    contextFrom l m es = m := by
  induction es with
  | nil => rfl
  | cons e es ih =>
    have hrest := ih (List.forall_mem_cons.mp h).2
    rw [contextFrom, List.foldl_cons, h e List.mem_cons_self]
    exact hrest

theorem Entry.Aside.spares {e : Entry} (h : e.Aside) (l : String) : e.Spares l := by
  cases e <;> first | exact fun _ => rfl | exact h.elim

theorem contextFrom_added (l : String) (m texts : List (String × String)) :
    contextFrom l m (added l texts) = Assoc.putAll m texts := by
  rw [contextFrom, added, List.foldl_map, Assoc.putAll]
  simp only [Entry.adjust, if_true]

/-- Keys that were added last can be removed first to last. -/
theorem contextFrom_removed (hnew : (texts.map Prod.fst).Disjoint (m.map Prod.fst)) :
    contextFrom l (m ++ texts) (removed l (texts.map Prod.fst)) = m := by
  induction texts with
  | nil => exact List.append_nil m
  | cons t texts ih =>
    rw [List.map_cons, List.disjoint_cons_left] at hnew
    have herase : Assoc.erase t.1 (m ++ t :: texts) = m ++ texts := by
      rw [Assoc.erase_append hnew.1, Assoc.erase, if_pos rfl]
    rw [List.map_cons, removed, List.map_cons, contextFrom, List.foldl_cons, Entry.adjust, if_pos rfl,
      herase]
    exact ih hnew.2

theorem spares_added {l' : String} (h : l' ≠ l) : ∀ e ∈ added l' texts, e.Spares l := by
  intro e he m
  obtain ⟨t, -, rfl⟩ := List.mem_map.mp he
  exact if_neg h

theorem spares_removed {l' : String} (h : l' ≠ l) (keys : List String) :
    ∀ e ∈ removed l' keys, e.Spares l := by
  intro e he m
  obtain ⟨k, -, rfl⟩ := List.mem_map.mp he
  exact if_neg h

theorem contextFrom_opening (o : Handle) (m : List (String × String)) :
    contextFrom l m o.opening = contextFrom l m (added o.logger o.metadata) := by
  rw [Handle.opening, contextFrom_append, contextFrom_append]
  cases o.scope? <;> rfl

theorem contextFrom_closing (o : Handle) (m : List (String × String)) :
    contextFrom l m o.closing = contextFrom l m (removed o.logger (o.metadata.map Prod.fst)) := by
  rw [Handle.closing, contextFrom_append]
  cases o.scope? <;> rfl

theorem contextFrom_report (h : Handle) (failure : Option Failure) (m : List (String × String)) :
    contextFrom l m (h.report failure) = m := by
  cases failure <;> rfl

def Handle.contextOn (l : String) (o : Handle) : List (String × String) :=
  if o.logger = l then o.metadata else []

theorem contextOn_keys (ho : Opens d s o) : (o.contextOn l).map Prod.fst = s.keysOn d l := by
  rw [Handle.contextOn, Span.keysOn, ho.logger]
  split
  · exact ho.keys
  · rfl

theorem context_opened (hkeys : (o.metadata.map Prod.fst).Nodup)
    (hnew : ((o.contextOn l).map Prod.fst).Disjoint (m.map Prod.fst)) :
    contextFrom l m o.opening = m ++ o.contextOn l := by
  rw [contextFrom_opening]
  by_cases h : o.logger = l
  · rw [Handle.contextOn, if_pos h] at hnew ⊢
    rw [h, contextFrom_added, Assoc.putAll_of_new hkeys hnew]
  · rw [Handle.contextOn, if_neg h, contextFrom_spared (spares_added h), List.append_nil]

theorem context_closed (hnew : ((o.contextOn l).map Prod.fst).Disjoint (m.map Prod.fst)) :
    contextFrom l (m ++ o.contextOn l) o.closing = m := by
  rw [contextFrom_closing]
  by_cases h : o.logger = l
  · rw [Handle.contextOn, if_pos h] at hnew ⊢
    rw [h, contextFrom_removed hnew]
  · rw [Handle.contextOn, if_neg h, contextFrom_spared (spares_removed h _), List.append_nil]

theorem StuckAfter.unique {given' : List (String × String)} {e' : Number.WriteError}
    (h : StuckAfter fields given e) (h' : StuckAfter fields given' e') : given = given' ∧ e = e' := by
  induction h generalizing given' with
  | here rest hv =>
    cases h' with
    | here _ hv' => exact ⟨rfl, Except.error.inj (hv.symm.trans hv')⟩
    | later hv' hrest => cases hv.symm.trans hv'
  | later hv hrest ih =>
    cases h' with
    | here _ hv' => cases hv.symm.trans hv'
    | later hv' hrest' =>
      obtain ⟨rfl, he⟩ := ih hrest'
      cases hv.symm.trans hv'
      exact ⟨rfl, he⟩

/-- A value that can be written is not one that cannot. -/
theorem not_worded_of_stuck (h : StuckAfter fields given e) : ¬ Worded fields texts := by
  intro hworded
  induction h generalizing texts with
  | here rest hv =>
    cases hworded with
    | cons ht hrest => cases hv.symm.trans ht.2
  | later hv hrest ih =>
    cases hworded with
    | cons ht hrest' => exact ih hrest'

/-- Whatever is done and however it ends, spans apart leave the context of their logger as it was. -/
theorem Nested.contextFrom_eq {r : Ran} (hn : Nested d r log) :
    ∀ {used : List String} {m : List (String × String)}, r.Apart d l used → m.map Prod.fst ⊆ used →
      contextFrom l m log = m := by
  induction hn with
  | @span s body o h failure notes inner hnotes ho hinner hkeys ih =>
    intro used m hapart hused
    obtain ⟨hopen, hbody⟩ := hapart
    have hnew : ((o.contextOn l).map Prod.fst).Disjoint (m.map Prod.fst) := by
      rw [contextOn_keys ho, Span.keysOn]
      split
      · next hl => exact List.disjoint_left.mpr fun k hk hm => (hopen hl).2 k hk (hused hm)
      · exact List.disjoint_nil_left _
    have hinside : (m ++ o.contextOn l).map Prod.fst ⊆ used ++ s.keysOn d l := by
      rw [List.map_append, contextOn_keys ho]
      exact List.append_subset.mpr
        ⟨List.Subset.trans hused (List.subset_append_left _ _), List.subset_append_right _ _⟩
    simp only [contextFrom_append]
    rw [contextFrom_spared (fun e he => (hnotes e he).spares l), context_opened ho.nodup hnew,
      ih hbody hinside, contextFrom_report, context_closed hnew]
  | @stuck s body given e notes hnotes h =>
    intro used m hapart hused
    have hother : d.nameOr s.logger ≠ l := by
      intro hl
      obtain ⟨⟨texts, htexts⟩, -⟩ := hapart.1 hl
      exact not_worded_of_stuck h htexts
    rw [contextFrom_append, contextFrom_spared (fun e he => (hnotes e he).spares l),
      contextFrom_spared (spares_added hother)]
  | done => exact fun _ _ => rfl
  | learnt hv hrest ih => exact fun hapart hused => ih hapart.2 hused
  | unwritable => exact fun _ _ => rfl
  | reported hrest ih => exact fun hapart hused => ih hapart.2 hused
  | raised => exact fun _ _ => rfl
  | told hnotes hrest ih =>
    intro used m hapart hused
    rw [contextFrom_append, contextFrom_spared (fun e he => (hnotes e he).spares l)]
    exact ih hapart.2 hused
  | left hspan hrest ihspan ih =>
    intro used m hapart hused
    rw [contextFrom_append, ihspan hapart.1 hused]
    exact ih hapart.2 hused
  | escaped hspan ih => exact fun hapart hused => ih hapart.1 hused
  | attempted hbody hrest ihbody ih =>
    intro used m hapart hused
    rw [contextFrom_append, ihbody hapart.1 hused]
    exact ih hapart.2 hused

/-- What was added before a value that cannot be written stays in the context. -/
theorem Nested.stuck_inv {body : List Act} {outcome : Except Failure Handle}
    (hn : Nested d (.span s body outcome) log) (h : StuckAfter s.fields given e) :
    ∃ notes, (∀ e ∈ notes, e.Aside) ∧ log = notes ++ added (d.nameOr s.logger) given ∧
      outcome = .error (.unwritable e) := by
  cases hn with
  | span hnotes ho hinner hkeys => exact absurd ho.metadata (not_worded_of_stuck h)
  | stuck hnotes h' =>
    obtain ⟨rfl, rfl⟩ := h.unique h'
    exact ⟨_, hnotes, rfl, rfl⟩

/-- Spans are balanced, with one exception. Whatever has been asked of a journal before, whatever is done
in the span and in those inside it, and however they end: what the run leaves is nested, or there is no
logger to be had and it leaves nothing of the span. A failure report says the reason and what has become
known. Where all spans on a logger can be opened and use none of the keys in use there, the run leaves the
context of the logger as it was. But a span with a value that cannot be written leaves in the context what
it had added before. -/
theorem spans_balanced (defaults : Defaults) (env : List (String × String)) (rs : List Request) (s : Span)
    (body : List Act) :
    let j := after { defaults, env } rs
    let ran := runSpan j s body
    (∃ log, ran.1.entries = j.entries ++ log ∧
      (Nested defaults (.span s body ran.2) log ∨ ∃ e, j.active = none ∧ BadSize j.env e ∧
        ran.2 = .error (.badBufferSize e) ∧ ∀ e ∈ log, e.Aside)) ∧
    (∀ (h : Handle) (reason k : String), (h.metadata.map Prod.fst).Nodup →
      Assoc.get? k (h.payload [("reason", reason)]) =
        if k = "reason" then some reason
        else if k = "component" ∧ h.scope? ≠ none then h.scope?
        else (Assoc.get? k h.metadata).or (if k = "span" then some h.name else none)) ∧
    (∀ l, (Act.span s body).Apart defaults l ((context l j.entries).map Prod.fst) →
      context l ran.1.entries = context l j.entries) ∧
    ∀ given e, StuckAfter s.fields given e → (∀ e, ran.2 ≠ .error (.badBufferSize e)) →
      ran.2 = .error (.unwritable e) ∧ context (defaults.nameOr s.logger) ran.1.entries
        = Assoc.putAll (context (defaults.nameOr s.logger) j.entries) given := by
  intro j ran
  have hj : Current j := (Current.fresh defaults env).after rs
  have hdefaults : j.defaults = defaults := (Current.fresh defaults env).defaults_after rs
  obtain ⟨log, hentries, hlog⟩ := runSpan_cases hj.loggers_eq_nil s body
  rw [hdefaults] at hlog
  refine ⟨⟨log, hentries, hlog⟩, fun h reason k hkeys => get?_payload hkeys reason k, fun l hapart => ?_,
    fun given e hstuck hserved => ?_⟩
  · rw [hentries, context_append]
    rcases hlog with hnested | ⟨e, -, -, -, haside⟩
    · exact hnested.contextFrom_eq hapart (List.Subset.refl _)
    · exact contextFrom_spared (fun e he => (haside e he).spares l) _
  · rcases hlog with hnested | ⟨e, -, -, hrefused, -⟩
    · obtain ⟨notes, hnotes, rfl, hran⟩ := hnested.stuck_inv hstuck
      refine ⟨hran, ?_⟩
      rw [hentries, context_append, contextFrom_append,
        contextFrom_spared (fun e he => (hnotes e he).spares _), contextFrom_added]
    · exact absurd hrefused (hserved e)

/-- Spans three deep on two loggers, where one failure is caught and the next escapes from all of them. -/
theorem spans_balanced_three_deep :
    let inner : Span := { name := "inner", component := .own, metadata := [("key", .string "j")] }
    let other : Span := { name := "other", logger := some "modes", metadata := [("mode", .string "normal")] }
    let outer : Span := { name := "outer", metadata := [("mode", .string "visual")] }
    let body : List Act := [.attempt [.span inner [.raise "unknown"]], .add "count" (.string "2"),
      .span other [.span inner [.event "tick", .raise "stop"]]]
    let ran := runSpan {} outer body
    (Act.span outer body).Apart {} "vim_interpreter" [] ∧ (Act.span outer body).Apart {} "modes" [] ∧
    Nested {} (.span outer body ran.2) ran.1.entries ∧
    context "vim_interpreter" ran.1.entries = [] ∧ context "modes" ran.1.entries = [] := by
  intro inner other outer body ran
  have hword : ∀ k text, ∃ texts, Worded [(k, .string text)] texts := fun k text =>
    ⟨[(k, text)], .cons ⟨rfl, plain_string text⟩ .nil⟩
  have hdefault : (Act.span outer body).Apart {} "vim_interpreter" [] :=
    ⟨fun _ => ⟨hword _ _, by decide⟩,
      ⟨⟨fun _ => ⟨hword _ _, by decide⟩, trivial, trivial⟩, trivial⟩, trivial,
      ⟨fun h => absurd h (by decide), ⟨fun _ => ⟨hword _ _, by decide⟩, trivial, trivial, trivial⟩, trivial⟩,
      trivial⟩
  have hmodes : (Act.span outer body).Apart {} "modes" [] :=
    ⟨fun h => absurd h (by decide),
      ⟨⟨fun h => absurd h (by decide), trivial, trivial⟩, trivial⟩, trivial,
      ⟨fun _ => ⟨hword _ _, by decide⟩, ⟨fun h => absurd h (by decide), trivial, trivial, trivial⟩, trivial⟩,
      trivial⟩
  obtain ⟨⟨log, hentries, hlog⟩, -, hcontext, -⟩ := spans_balanced {} [] [] outer body
  refine ⟨hdefault, hmodes, ?_, hcontext _ hdefault, hcontext _ hmodes⟩
  rcases hlog with hnested | ⟨e, -, hbad, -⟩
  · exact hentries ▸ hnested
  · exact absurd hbad.1 (by decide)

theorem plain_of_long {n : Int} (h : Nat.pow 10 Number.digitLimit ≤ n.natAbs) :
    (Json.int n).plain = .error .tooLong := by
  show (Json.int n).literal = .error .tooLong
  rw [Json.literal, Json.fits, decide_eq_false (Nat.not_lt.mpr h)]
  exact if_neg Bool.false_ne_true

/-- The second value has too many digits to be written: the span is never opened, but the key before it is
in the context of the logger and never removed. -/
theorem context_left_behind :
    let s : Span :=
      { name := "s", metadata := [("a", .string "x"), ("b", .int (Nat.pow 10 Number.digitLimit))] }
    let ran := runSpan {} s []
    ran.2 = .error (.unwritable .tooLong) ∧
    .addContext "vim_interpreter" "a" "x" ∈ ran.1.entries ∧ .removeContext "vim_interpreter" "a" ∉ ran.1.entries ∧
    context "vim_interpreter" ({} : Journal).entries = [] ∧ context "vim_interpreter" ran.1.entries = [("a", "x")] := by
  intro s ran
  have hstuck : StuckAfter s.fields [("a", "x")] .tooLong :=
    .later (plain_string "x") (.here [] (plain_of_long (Nat.le_of_eq (Int.natAbs_natCast _).symm)))
  obtain ⟨log, hentries, hlog⟩ := runSpan_cases (j := {}) (fun _ => rfl) s []
  have hnested : Nested {} (.span s [] ran.2) log := by
    rcases hlog with hnested | ⟨e, -, hbad, -⟩
    · exact hnested
    · exact absurd hbad.1 (by decide)
  obtain ⟨notes, hnotes, rfl, hran⟩ := hnested.stuck_inv hstuck
  have hlogged : ran.1.entries = notes ++ added "vim_interpreter" [("a", "x")] := hentries
  refine ⟨hran, ?_, ?_, rfl, ?_⟩
  · rw [hlogged]
    exact List.mem_append_right _ (List.mem_singleton_self _)
  · rw [hlogged, List.mem_append, not_or]
    refine ⟨fun h => hnotes _ h, fun h => ?_⟩
    cases List.mem_singleton.mp h
  · rw [hlogged, context_append, contextFrom_added, context,
      contextFrom_spared (fun e he => (hnotes e he).spares _)]
    rfl

end Journal
end ModalEditing
