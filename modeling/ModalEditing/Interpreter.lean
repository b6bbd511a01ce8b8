import ModalEditing.Key.Basic
import ModalEditing.Keymap.Basic
import ModalEditing.Turn

namespace ModalEditing

/-- Why a key could not be carried out. -/
inductive Fault
  | badCount (e : Number.ReadError)
  | notPositive (e : Action.CountError)
  | badMode (e : UnknownName)
deriving DecidableEq

def Fault.message : Fault → String
  | .badCount e => e.message
  | .notPositive e => e.message
  | .badMode e => e.message

def escapeName : String := "escape"

def isDigitToken (token : String) : Bool :=
  ["0", "1", "2", "3", "4", "5", "6", "7", "8", "9"].contains token

namespace State

/-- Carries out a search binding: a search begins with a new pattern, or repeats the last. -/
def find (s : State) (name : String) : State × Action :=
  match Direction.ofSearch? name with
  | some d => ({ s with search.direction := d, search.pattern := "" }, .search name none)
  | none => (s, .search name s.search.last)

def follow (s : State) : Option String → Except Fault State
  | none => .ok s
  | some name =>
    if name = "" then .ok s
    else match Mode.parse name with
      | .ok m => .ok (s.switch m)
      | .error e => .error (.badMode e)

def perform (s : State) (b : Binding) (count : Int) : State × Except Fault Action :=
  let s := s.resetPending
  match b.kind with
  | .motion =>
    ({ s with lastMotion := some b.action }, (Action.motion b.action count).mapError .notPositive)
  | .search =>
    let (s, a) := s.find b.action
    (s, .ok a)
  | .modeChange =>
    match s.follow b.switchTo with
    | .ok s => (s, .ok (.modeChange b.action))
    | .error e => (s, .error e)
  | .edit =>
    match s.follow b.switchTo with
    | .ok s => (s, (Action.edit b.action count).mapError .notPositive)
    | .error e => (s, .error e)

def resolve (s : State) (b : Binding) : State × Except Fault Action :=
  if b.counted then
    match s.number with
    | .ok n => s.perform b n
    | .error e => (s, .error (.badCount e))
  else s.perform b 1

def resolve? (s : State) : Option Binding → State × Except Fault Action
  | some b => s.resolve b
  | none => (s.resetPending, .ok .nothing)

/-- Counts are typed in the normal group alone; a zero only continues one. -/
def countsDigit (s : State) (g : Group) (token : String) : Bool :=
  g = .normal && isDigitToken token && (token ≠ "0" || s.digits ≠ "")

/-- Reads a token in a group. The second key of a doubled binding must repeat its leader. -/
def readToken (s : State) (t : Keymap) (g : Group) (token : String) : State × Except Fault Action :=
  if s.countsDigit g token then ({ s with digits := s.digits ++ token }, .ok .nothing)
  else if s.leader ≠ "" then
    s.resolve? (if token = s.leader then t.find? g [s.leader, token] else none)
  else if t.isLeader g token then ({ s with leader := token }, .ok .nothing)
  else s.resolve? (t.find? g [token])

/-- Reads a key. While inserting all but the escape key is the host's. -/
def readKey (s : State) (t : Keymap) (k : Key) : State × Except Fault Action :=
  if k.name = escapeName then
    if s.mode = .normal then (s.resetPending, .ok .nothing)
    else (s.switch .normal, .ok (.modeChange Mode.normal.name))
  else match s.mode.group? with
    | none => (s, .ok .nothing)
    | some g => s.readToken t g k.token

def keySpan (s : State) (k : Key) : Span :=
  { name := "interpreter::handle", logger := State.logger, component := .named "interpreter",
    metadata := [("key", .string k.token), ("mode", .string s.mode.name)] }

/-- Handles a key; a disabled interpreter passes over it. The turn is made as if all reports were taken:
how far it gets where the journal refuses one is for the `Station` that carries it. -/
def handle (s : State) (t : Keymap) (k : Key) : Turn × Except Fault Action :=
  if !s.enabled then (⟨s, []⟩, .ok .nothing)
  else
    let (s', outcome) := s.readKey t k
    let turn := (Turn.tell ⟨s, []⟩ [.report (.enter (s.keySpan k))]).become s'
    match outcome with
    | .error e => (turn.tell [.report (.leave (s.keySpan k) [] (some e.message))], .error e)
    | .ok a =>
      let learnt := [("action", Json.string (a.name.getD a.kind.name))]
      let turn := turn.tell [.report (.leave (s.keySpan k) learnt none)]
      let turn := if a.isNone then turn else turn.tell [.event (.action a)]
      (turn.publish s, .ok a)

def setMode (s : State) (m : Mode) : Turn := (Turn.become ⟨s, []⟩ (s.switch m)).publish s

/-- Switches the interpreter on or off; on, it starts in normal mode with nothing pending. -/
def setEnabled (s : State) (enabled : Bool) : Turn :=
  let turn := Turn.become ⟨s, []⟩ { s with enabled := enabled }
  let next := if enabled then turn.state.switch .normal else turn.state.resetPending
  (turn.become next).publish s

def toggle (s : State) : Turn := s.setEnabled !s.enabled

/-- Puts text that the host cut or copied into the unnamed register. Observers are always told. -/
def setYank (s : State) (text : Text) : Turn :=
  Turn.tell ⟨s.yank text, []⟩ [.event (.state (s.yank text))]

def setSearchPattern (s : State) (pattern : String) : Turn :=
  (Turn.become ⟨s, []⟩ (s.setPattern pattern)).publish s

inductive Control
  | setMode (m : Mode)
  | enable
  | disable
  | toggle
  | yank (text : Text)
  | pattern (p : String)

def control (s : State) : Control → Turn
  | .setMode m => s.setMode m
  | .enable => s.setEnabled true
  | .disable => s.setEnabled false
  | .toggle => s.toggle
  | .yank text => s.setYank text
  | .pattern p => s.setSearchPattern p

end State
end ModalEditing
