import Mathlib.Data.List.Forall2
import ModalEditing.Proofs.Journal.Steps

namespace ModalEditing

/-- The metadata of a span; a repeated key takes its last value. -/
def Span.fields (s : Span) : List (String × Json) := Assoc.ofList s.metadata

def Span.keys (s : Span) : List String := s.fields.map (·.1)

namespace Journal
variable {j j' : Journal} {s : Span}

/-- Values written out, in order. -/
abbrev Worded (fields : List (String × Json)) (texts : List (String × String)) : Prop :=
  List.Forall₂ (fun f t => f.1 = t.1 ∧ f.2.plain = .ok t.2) fields texts

/-- Values written out in order up to the first that has too many digits to be written. -/
inductive StuckAfter : List (String × Json) → List (String × String) → Number.WriteError → Prop
  | here {k : String} {v : Json} {e : Number.WriteError} (rest : List (String × Json))
    (h : v.plain = .error e) : StuckAfter ((k, v) :: rest) [] e
  | later {k text : String} {v : Json} {e : Number.WriteError} {rest : List (String × Json)}
    {given : List (String × String)} (h : v.plain = .ok text) (hrest : StuckAfter rest given e) :
    StuckAfter ((k, v) :: rest) ((k, text) :: given) e

def added (l : String) (texts : List (String × String)) : List Entry :=
  texts.map fun t => .addContext l t.1 t.2

def removed (l : String) (keys : List String) : List Entry := keys.map (.removeContext l)

namespace Handle

def opening (h : Handle) : List Entry :=
  added h.logger h.metadata ++ (h.scope?.map (.enterComponent h.logger)).toList
    ++ [.enterProfile h.logger h.name]

def closing (h : Handle) : List Entry :=
  removed h.logger (h.metadata.map (·.1)) ++ .exitProfile h.logger h.name
    :: (h.scope?.map (.exitComponent h.logger)).toList

def failureReport (h : Handle) (reason : String) : Entry :=
  .message h.logger "error" "span::fail" (h.payload [("reason", reason)])

def report (h : Handle) (failure : Option Failure) : List Entry :=
  (failure.map fun e => h.failureReport e.message).toList

end Handle

/-- The handle of a span that has been opened. -/
structure Opens (d : Defaults) (s : Span) (o : Handle) : Prop where
  logger : o.logger = d.nameOr s.logger
  name : o.name = s.name
  component : o.component = s.componentName
  metadata : Worded s.fields o.metadata

theorem run_write (e : Entry) (j : Journal) : (write e).run j = .ok () (j.noting [e]) := rfl

theorem run_addContext (l : String) (fields : List (String × Json)) (j : Journal) :
    (∃ texts, Worded fields texts ∧ (addContext l fields).run j = .ok texts (j.noting (added l texts))) ∨
    ∃ given e, StuckAfter fields given e ∧
      (addContext l fields).run j = .error (.unwritable e) (j.noting (added l given)) := by
  induction fields generalizing j with
  | nil => exact .inl ⟨[], .nil, by rw [added, List.map_nil, noting_nil]; rfl⟩
  | cons f rest ih =>
    obtain ⟨k, v⟩ := f
    rw [addContext, EStateM.run_bind]
    cases hv : v.plain with
    | error e =>
      refine .inr ⟨[], e, .here rest hv, ?_⟩
      rw [run_plain_error hv, added, List.map_nil, noting_nil]
    | ok text =>
      simp only [run_plain_ok hv, EStateM.run_bind, run_write]
      rcases ih (j.noting [.addContext l k text]) with ⟨texts, htexts, hrun⟩ | ⟨given, e, hstuck, hrun⟩
      · refine .inl ⟨(k, text) :: texts, .cons ⟨rfl, hv⟩ htexts, ?_⟩
        rw [hrun, noting_noting]
        rfl
      · refine .inr ⟨(k, text) :: given, e, .later hv hstuck, ?_⟩
        rw [hrun, noting_noting]
        rfl

theorem run_enterScopes (h : Handle) (j : Journal) : (enterScopes h).run j = .ok ()
    (j.noting ((h.scope?.map (.enterComponent h.logger)).toList ++ [.enterProfile h.logger h.name])) := by
  rw [enterScopes]
  cases h.scope? with
  | none => rfl
  | some c =>
    simp only [EStateM.run_bind, run_write, noting_noting]
    rfl

theorem run_removeContext (l : String) (keys : List String) (j : Journal) :
    (removeContext l keys).run j = .ok () (j.noting (removed l keys)) := by
  induction keys generalizing j with
  | nil => rw [removed, List.map_nil, noting_nil]; rfl
  | cons k rest ih =>
    rw [removeContext, EStateM.run_bind, run_write]
    dsimp only
    rw [ih, noting_noting]
    rfl

theorem run_close (opened : Handle) (j : Journal) :
    (close opened).run j = .ok () (j.noting opened.closing) := by
  simp only [close, EStateM.run_bind, run_removeContext, run_write, noting_noting, Handle.closing]
  cases opened.scope? with
  | none => rfl
  | some c =>
    rw [run_write, noting_noting, List.append_assoc]
    rfl

theorem run_leave (opened h : Handle) (failure : Option Failure) (j : Journal) :
    (leave opened h failure).run j = .ok () (j.noting (h.report failure ++ opened.closing)) := by
  cases failure with
  | none => exact run_close opened j
  | some e =>
    simp only [leave, EStateM.run_bind, Handle.fail, run_write, run_close, noting_noting]
    rfl

inductive Entering (j : Journal) (s : Span) : EStateM.Result Failure Journal Handle → Prop
  | opened {o : Handle} {j' : Journal} (hrun : (logger s.logger).run j = .ok o.logger j')
    (ho : Opens j.defaults s o) : Entering j s (.ok o (j'.noting o.opening))
  | stuck {l : String} {given : List (String × String)} {e : Number.WriteError} {j' : Journal}
    (hrun : (logger s.logger).run j = .ok l j') (h : StuckAfter s.fields given e) :
    Entering j s (.error (.unwritable e) (j'.noting (added l given)))
  | unserved {e : Failure} {j' : Journal} (hrun : (logger s.logger).run j = .error e j') :
    Entering j s (.error e j')

theorem entering (s : Span) (j : Journal) : Entering j s ((enter s).run j) := by
  have hserving := serving s.logger j
  rw [enter, EStateM.run_bind]
  cases hrun : (logger s.logger).run j with
  | error e j' => exact .unserved hrun
  | ok l j' =>
    dsimp only
    rw [EStateM.run_bind, ← Span.fields]
    rcases run_addContext l s.fields j' with ⟨texts, htexts, hadd⟩ | ⟨given, e, hstuck, hadd⟩
    · rw [hadd]
      have hl : l = j.defaults.nameOr s.logger := by
        rw [hrun] at hserving
        exact hserving.name
      have ho : Opens j.defaults s ⟨l, s.name, s.componentName, texts⟩ := ⟨hl, rfl, rfl, htexts⟩
      have hopened := Entering.opened (o := ⟨l, s.name, s.componentName, texts⟩) hrun ho
      rw [Handle.opening, List.append_assoc, ← noting_noting] at hopened
      simp only [EStateM.run_bind, run_enterScopes]
      exact hopened
    · rw [hadd]
      exact .stuck hrun hstuck

end Journal
end ModalEditing
