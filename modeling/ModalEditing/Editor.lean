import ModalEditing.Key.Press
import ModalEditing.Surface.Apply

namespace ModalEditing

/-- `listening` says that the status line follows the interpreter, and `applies` that actions are
carried out. -/
structure Editor where
  desk : Desk
  table : Keymap
  listening : Bool := true
  applies : Bool := true

namespace Editor

inductive Failure
  | key (e : Fault)
  | area (e : Desk.Failure)
deriving DecidableEq

def Failure.message : Failure → String
  | .key e => e.message
  | .area e => e.message

def state (e : Editor) : State := e.desk.state

def status? (o : Output) : Option String :=
  match o with
  | .moment ⟨.event (.state _), s⟩ => some s.status
  | _ => none

def statuses (e : Editor) (os : List Output) : List String :=
  if e.listening then os.filterMap status? else []

def wants (s : State) (key : String) : Bool :=
  s.enabled && (s.mode ≠ .insert || Press.canonical key = escapeName)

def lineText (s : State) (start : String) (fields : List (String × String)) : String :=
  let all := [("mode", Text.quote s.mode.name), ("pending", Text.quote s.pending)] ++ fields
  " ".intercalate (start :: all.map fun (k, v) => k ++ "=" ++ v)

def keyLine (s : State) (k : Key) : String := lineText s "key ->" [("key", Text.quote k.token)]

def actionLine (s : State) (a : Action) : String :=
  lineText s "action <-" <|
    [("kind", Text.quote a.kind.name)] ++ (a.name.map fun n => ("name", Text.quote n)).toList
      ++ [("count", toString a.count)]

def press (e : Editor) (p : Press) : Editor × Except Failure Action :=
  let k := p.toKey
  let d := e.desk.say [.line (keyLine e.state k)]
  let (turn, outcome) := d.state.handle e.table k
  let d := d.follow turn
  match outcome with
  | .error f => ({ e with desk := d }, .error (.key f))
  | .ok a =>
    let (d, failure) := if !a.isNone && e.applies then d.apply a else (d, none)
    match failure with
    | some f => ({ e with desk := d }, .error (.area f))
    | none => ({ e with desk := d.say [.line (actionLine d.state a)] }, .ok a)

def control (e : Editor) (c : State.Control) : Editor :=
  { e with desk := e.desk.follow (e.state.control c) }

def apply (e : Editor) (a : Action) : Editor × Option Desk.Failure :=
  let (d, failure) := e.desk.apply a
  ({ e with desk := d }, failure)

def flush (e : Editor) : Editor × List Output :=
  ({ e with desk.outputs := [] }, e.desk.outputs)

end Editor
end ModalEditing
