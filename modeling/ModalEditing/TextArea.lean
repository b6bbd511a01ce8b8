import ModalEditing.Text.Lines

namespace ModalEditing

structure Location where
  row : Nat
  col : Nat
deriving DecidableEq, Inhabited

namespace Location

def before (a b : Location) : Bool := a.row < b.row || (a.row = b.row && a.col < b.col)

def ordered (a b : Location) : Location × Location := if b.before a then (b, a) else (a, b)

end Location

/-- The location in a list of lines nearest to one that may lie outside. -/
def clampTo (ls : List Text) (l : Location) : Location :=
  let row := min l.row (ls.length - 1)
  ⟨row, min l.col (ls.getD row []).length⟩

def offsetIn : List Text → Location → Nat
  | [], _ => 0
  | _ :: _, ⟨0, col⟩ => col
  | l :: ls, ⟨row + 1, col⟩ => l.length + 1 + offsetIn ls ⟨row, col⟩

structure Selection where
  start : Location
  stop : Location
deriving DecidableEq, Inhabited

/-- What was asked of a text area. `moveOutside` holds a row or column below zero. -/
inductive Call
  | move (loc : Location) (select : Bool)
  | moveOutside (row col : Int) (select : Bool)
  | range (a b : Location)
  | delete (a b : Location)
  | insert (text : Text) (loc : Location)
  | undo
  | redo
  | type (text : Text)
  | focus
deriving DecidableEq

/-- The history holds whole texts, the latest first. -/
structure TextArea where
  text : Text := []
  cursor : Location := ⟨0, 0⟩
  selection : Selection := ⟨⟨0, 0⟩, ⟨0, 0⟩⟩
  readOnly : Bool := false
  undone : List Text := []
  done : List Text := []
  calls : List Call := []
deriving Inhabited

namespace TextArea

def lines (a : TextArea) : List Text := Text.lines a.text

def lastRow (a : TextArea) : Nat := a.lines.length - 1

/-- A row of the text; empty where there is none. -/
def line (a : TextArea) (row : Nat) : Text := a.lines.getD row []

def note (a : TextArea) (c : Call) : TextArea := { a with calls := a.calls ++ [c] }

def offset (a : TextArea) (l : Location) : Nat := offsetIn a.lines (clampTo a.lines l)

def between (a : TextArea) (x y : Location) : Text :=
  let lo := min (a.offset x) (a.offset y)
  let hi := max (a.offset x) (a.offset y)
  (a.text.drop lo).take (hi - lo)

def selectedText (a : TextArea) : Text := a.between a.selection.start a.selection.stop

/-- Puts the cursor at a location; the selection is empty there, or keeps its start. -/
def place (a : TextArea) (l : Location) (select : Bool) : TextArea :=
  let l := clampTo a.lines l
  { a with cursor := l, selection := ⟨if select then a.selection.start else l, l⟩ }

def moveCursor (a : TextArea) (l : Location) (select : Bool := false) : TextArea :=
  (a.note (.move l select)).place l select

def moveTo (a : TextArea) (row col : Int) (select : Bool) : TextArea :=
  if 0 ≤ row ∧ 0 ≤ col then a.moveCursor ⟨row.toNat, col.toNat⟩ select
  else (a.note (.moveOutside row col select)).place ⟨row.toNat, col.toNat⟩ select

def range (a : TextArea) (x y : Location) : TextArea × Text := (a.note (.range x y), a.between x y)

/-- Takes another text. Cursor and selection stay where the text still has them. -/
def setText (a : TextArea) (t : Text) : TextArea :=
  let ls := Text.lines t
  { a with text := t, cursor := clampTo ls a.cursor,
           selection := ⟨clampTo ls a.selection.start, clampTo ls a.selection.stop⟩ }

def edit (a : TextArea) (t : Text) : TextArea :=
  TextArea.setText { a with done := a.text :: a.done, undone := [] } t

def delete (a : TextArea) (x y : Location) : TextArea :=
  let lo := min (a.offset x) (a.offset y)
  let hi := max (a.offset x) (a.offset y)
  (a.note (.delete x y)).edit (a.text.take lo ++ a.text.drop hi)

def insert (a : TextArea) (t : Text) (l : Location) : TextArea :=
  let n := a.offset l
  (a.note (.insert t l)).edit (a.text.take n ++ t ++ a.text.drop n)

def undo (a : TextArea) : TextArea :=
  let a := a.note .undo
  match a.done with
  | [] => a
  | t :: done => TextArea.setText { a with done := done, undone := a.text :: a.undone } t

def redo (a : TextArea) : TextArea :=
  let a := a.note .redo
  match a.undone with
  | [] => a
  | t :: undone => TextArea.setText { a with undone := undone, done := a.text :: a.done } t

def locate (t : Text) (n : Nat) : Location :=
  let ls := Text.lines (t.take n)
  ⟨ls.length - 1, (ls.getLast?.getD []).length⟩

def typeText (a : TextArea) (t : Text) : TextArea :=
  let a := a.note (.type t)
  if a.readOnly then a
  else
    let n := a.offset a.cursor
    let a := a.edit (a.text.take n ++ t ++ a.text.drop n)
    let l := locate a.text (n + t.length)
    { a with cursor := l, selection := ⟨l, l⟩ }

def focus (a : TextArea) : TextArea := a.note .focus

end TextArea
end ModalEditing
