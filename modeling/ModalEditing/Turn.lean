import ModalEditing.Action
import ModalEditing.Journal.Report
import ModalEditing.State

namespace ModalEditing

/-- What observers are told. -/
inductive Event
  | action (a : Action)
  | mode (m : Mode)
  | enabled (b : Bool)
  | state (s : State)
deriving DecidableEq

inductive Topic
  | action
  | mode
  | enabled
  | state
deriving DecidableEq

def Topic.name : Topic → String
  | .action => "action"
  | .mode => "mode.changed"
  | .enabled => "enabled.changed"
  | .state => "state.changed"

def Topic.ofName? (s : String) : Option Topic :=
  [Topic.action, .mode, .enabled, .state].find? (·.name = s)

def Event.topic : Event → Topic
  | .action _ => .action
  | .mode _ => .mode
  | .enabled _ => .enabled
  | .state _ => .state

inductive Notice
  | report (r : Report)
  | event (e : Event)

/-- A notice with the state at the time. -/
structure Moment where
  notice : Notice
  state : State

/-- A call under way: the state so far, and the moments so far in order. -/
structure Turn where
  state : State
  moments : List Moment := []

def State.logger : String := "vim_interpreter.modes"

def State.changes (old new : State) : List Notice :=
  (if old.enabled = new.enabled then []
    else [.report (.event "interpreter.enabled" "info" State.logger [("enabled", .bool new.enabled)]),
          .event (.enabled new.enabled)])
  ++ (if old.mode = new.mode then []
    else [.report (.event "mode.switch" "debug" State.logger
            [("from", .string old.mode.name), ("mode", .string new.mode.name)]),
          .event (.mode new.mode)])

namespace Turn

def tell (t : Turn) (ns : List Notice) : Turn :=
  { t with moments := t.moments ++ ns.map (⟨·, t.state⟩) }

def become (t : Turn) (s : State) : Turn := Turn.tell { t with state := s } (t.state.changes s)

/-- Tells the state, if more than its registers differs from that before the call. -/
def publish (t : Turn) (before : State) : Turn :=
  if t.state.face = before.face then t else t.tell [.event (.state t.state)]

def events (t : Turn) : List Event :=
  t.moments.filterMap fun m => match m.notice with
    | .event e => some e
    | .report _ => none

def reports (t : Turn) : List Report :=
  t.moments.filterMap fun m => match m.notice with
    | .report r => some r
    | .event _ => none

end Turn
end ModalEditing
