import ModalEditing.Interpreter
import ModalEditing.Journal.Span
import ModalEditing.Keymap.Default
import ModalEditing.Keymap.Report

namespace ModalEditing

/-- An interpreter with its keymap and the journal it reports to. `told` is all that observers have been
told. -/
structure Station where
  state : State := {}
  keymap : Keymap := {}
  journal : Journal := {}
  told : List Event := []

namespace Station

inductive Failure
  | key (f : Fault)
  | journal (e : Journal.Failure)
deriving DecidableEq

def Failure.message : Failure → String
  | .key f => f.message
  | .journal e => e.message

inductive Refusal
  | conflict (c : Keymap.Conflict)
  | journal (e : Journal.Failure)

/-- Passes on what a turn tells, up to the first report that the journal does not take. The state goes
along with it. -/
def tell (s : Station) : List Moment → Station × Option Journal.Failure
  | [] => (s, none)
  | ⟨.event e, now⟩ :: rest => tell { s with state := now, told := s.told ++ [e] } rest
  | ⟨.report r, now⟩ :: rest =>
    match (Journal.put r).run s.journal with
    | .ok _ j => tell { s with state := now, journal := j } rest
    | .error e j => ({ s with state := now, journal := j }, some e)

def carry (s : Station) (t : Turn) : Station × Option Journal.Failure :=
  match s.tell t.moments with
  | (s, none) => ({ s with state := t.state }, none)
  | (s, some e) => (s, some e)

def handle (s : Station) (k : Key) : Station × Except Failure Action :=
  let (turn, outcome) := s.state.handle s.keymap k
  match s.carry turn with
  | (s, none) => (s, outcome.mapError .key)
  | (s, some e) => (s, .error (.journal e))

def control (s : Station) (c : State.Control) : Station × Option Journal.Failure :=
  s.carry (s.state.control c)

def register (s : Station) (b : Binding) (replace : Bool := false) : Station × Option Refusal :=
  match s.journal.putAll (s.keymap.registerReports b replace) with
  | (j, some e) => ({ s with journal := j }, some (.journal e))
  | (j, none) =>
    match s.keymap.register b replace with
    | .ok t => ({ s with keymap := t, journal := j }, none)
    | .error c => ({ s with journal := j }, some (.conflict c))

def registerMany (s : Station) (replace : Bool) : List Binding → Station × Option Refusal
  | [] => (s, none)
  | b :: bs =>
    match s.register b replace with
    | (s, none) => registerMany s replace bs
    | (s, some r) => (s, some r)

def loadDefaults (s : Station) (replace : Bool := false) (extra : List Binding := []) :
    Station × Option Refusal :=
  match s.registerMany replace Keymap.defaults with
  | (s, none) => s.registerMany true extra
  | (s, some r) => (s, some r)

def unregister (s : Station) (group : String) (sequence : List String) : Station × Option Binding :=
  let (t, b) := s.keymap.unregister group sequence
  ({ s with keymap := t }, b)

end Station
end ModalEditing
