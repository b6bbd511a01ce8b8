import ModalEditing.Mode
import ModalEditing.Register

namespace ModalEditing

inductive Direction
  | forward
  | backward
deriving DecidableEq, Inhabited

namespace Direction

def name : Direction → String
  | .forward => "forward"
  | .backward => "backward"

def parse (s : String) : Except UnknownName Direction :=
  match [forward, backward].find? (·.name = s) with
  | some d => .ok d
  | none => .error ⟨.direction, s⟩

def opposite : Direction → Direction
  | .forward => .backward
  | .backward => .forward

def ofSearch? (name : String) : Option Direction :=
  [("search-forward", forward), ("search-backward", backward)].lookup name

theorem parse_name (d : Direction) : parse d.name = .ok d := by cases d <;> rfl

end Direction

/-- The pattern being entered, the way it is searched, and the last one that was not empty. -/
structure Search where
  pattern : String := ""
  direction : Direction := .forward
  last : Option String := none
deriving DecidableEq, Inhabited

/-- `digits` is the count typed so far and `leader` the first key of a command that needs it twice. -/
structure State where
  mode : Mode := .normal
  enabled : Bool := false
  digits : String := ""
  leader : String := ""
  lastMotion : Option String := none
  registers : Bank := {}
  search : Search := {}
deriving DecidableEq, Inhabited

namespace State

def pending (s : State) : String := s.digits ++ s.leader

/-- The count typed; one if there is none. -/
def number (s : State) : Except Number.ReadError Int :=
  if s.digits = "" then .ok 1 else Number.read s.digits

def resetPending (s : State) : State := { s with digits := "", leader := "" }

def switch (s : State) (m : Mode) : State := { s.resetPending with mode := m }

/-- All but the registers. -/
def face (s : State) : Mode × Bool × String × String × Option String × Search :=
  (s.mode, s.enabled, s.digits, s.leader, s.lastMotion, s.search)

def unnamed (s : State) : Text := s.registers.get Bank.unnamed

def yank (s : State) (text : Text) : State :=
  { s with registers := s.registers.set Bank.unnamed text }

def setPattern (s : State) (pattern : String) : State :=
  { s with search.pattern := pattern,
           search.last := if pattern = "" then s.search.last else some pattern }

def label : Mode → String
  | .normal => "NORMAL"
  | .insert => "-- INSERT --"
  | .visual => "-- VISUAL --"
  | .visualLine => "-- VISUAL LINE --"

/-- The status line: the mode and what is pending; nothing while disabled. -/
def status (s : State) : String :=
  if !s.enabled then ""
  else if s.pending = "" then label s.mode
  else label s.mode ++ " " ++ s.pending

end State
end ModalEditing
