import ModalEditing.Interpreter
import ModalEditing.Motion
import ModalEditing.Text.Copies

namespace ModalEditing

/-- What a desk lets the outside know: what the interpreter tells, a wish for a search pattern, or a
line about what is going on. -/
inductive Output
  | moment (m : Moment)
  | request (d : Direction)
  | line (text : String)

/-- `anchor` is where a visual selection began. A desk that `asks` wishes for a pattern when a search
begins. The outputs are those so far, in order. `room` is how many characters copies may have together,
if memory sets them a bound; the host may change it at any time. -/
structure Desk where
  state : State
  area : TextArea
  anchor : Option Location := none
  asks : Bool := true
  outputs : List Output := []
  room : Option Nat := none

namespace Desk

inductive Failure
  | noLine
  | copies (e : Text.CopyError)
deriving DecidableEq

def Failure.message : Failure → String
  | .noLine => "line index out of range"
  | .copies e => e.message

def row (d : Desk) : Nat := d.area.cursor.row

def col (d : Desk) : Nat := d.area.cursor.col

def say (d : Desk) (os : List Output) : Desk := { d with outputs := d.outputs ++ os }

def follow (d : Desk) (t : Turn) : Desk :=
  say { d with state := t.state } (t.moments.map .moment)

def report (d : Desk) (r : Report) : Desk := d.say [.moment ⟨.report r, d.state⟩]

def yank (d : Desk) (t : Text) : Desk := d.follow (d.state.setYank t)

def move (d : Desk) (l : Location) (select : Bool := false) : Desk :=
  { d with area := d.area.moveCursor l select }

def delete (d : Desk) (x y : Location) : Desk := { d with area := d.area.delete x y }

def insert (d : Desk) (t : Text) (l : Location) : Desk := { d with area := d.area.insert t l }

end Desk
end ModalEditing
