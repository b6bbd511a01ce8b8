import ModalEditing.Surface.Desk

namespace ModalEditing

inductive EditName
  | deleteChar
  | deleteLine
  | yankLine
  | changeLine
  | deleteToLineEnd
  | changeToLineEnd
  | pasteAfter
  | pasteBefore
  | undo
  | redo
  | deleteSelection
  | changeSelection
  | yankSelection
deriving DecidableEq

def EditName.names : List (String × EditName) :=
  [("delete-char", .deleteChar), ("delete-line", .deleteLine), ("yank-line", .yankLine),
   ("change-line", .changeLine), ("delete-to-line-end", .deleteToLineEnd),
   ("change-to-line-end", .changeToLineEnd), ("paste-after", .pasteAfter),
   ("paste-before", .pasteBefore), ("undo", .undo), ("redo", .redo),
   ("delete-selection", .deleteSelection), ("change-selection", .changeSelection),
   ("yank-selection", .yankSelection)]

namespace Desk

def cut (d : Desk) (x y : Location) : Desk :=
  let (area, t) := d.area.range x y
  ((yank { d with area := area } t).delete x y).move x

/-- Removes whole rows with one of the newlines beside them. -/
def deleteRows (d : Desk) (first last : Nat) : Desk :=
  let stop : Location := ⟨last, (d.area.line last).length⟩
  if last < d.area.lastRow then
    let d := d.delete ⟨first, 0⟩ ⟨last + 1, 0⟩
    d.move ⟨first, Text.indent (d.area.line first)⟩
  else if 0 < first then
    let d := d.delete ⟨first - 1, (d.area.line (first - 1)).length⟩ stop
    d.move ⟨first - 1, Text.indent (d.area.line (first - 1))⟩
  else (d.delete ⟨0, 0⟩ stop).move ⟨0, 0⟩

/-- Puts the register back: text that ends in a newline as rows of its own, other text in the line. -/
def paste (d : Desk) (after : Bool) (count : Nat) : Desk :=
  let t := d.state.unnamed
  let line := d.area.line d.row
  if t.isEmpty then d
  else if t.getLast? = some '\n' then
    let block := Text.copies count t
    if after && d.row = d.area.lastRow then
      (d.insert ('\n' :: block.dropLast) ⟨d.row, line.length⟩).move ⟨d.row + 1, 0⟩
    else
      let row := if after then d.row + 1 else d.row
      (d.insert block ⟨row, 0⟩).move ⟨row, 0⟩
  else d.insert (Text.copies count t) ⟨d.row, if after then min line.length (d.col + 1) else d.col⟩

def rows (d : Desk) (count : Nat) : Nat × Text :=
  let last := min d.area.lastRow (d.row + count - 1)
  let ls := (d.area.lines.drop d.row).take (last + 1 - d.row)
  (last, Text.joinLines ls ++ ['\n'])

def takeSelection (d : Desk) (remove : Bool) : Desk :=
  let (x, y) := d.area.selection.start.ordered d.area.selection.stop
  let d := d.yank d.area.selectedText
  let d := (if remove then d.delete x y else d).move x
  { d with anchor := none }

def edit (d : Desk) (count : Nat) : EditName → Desk
  | .deleteChar =>
    d.cut d.area.cursor ⟨d.row, min (d.area.line d.row).length (d.col + count)⟩
  | .yankLine => d.yank (d.rows count).2
  | .deleteLine =>
    let (last, t) := d.rows count
    (d.yank t).deleteRows d.row last
  | .changeLine =>
    let (last, t) := d.rows count
    ((d.yank t).delete ⟨d.row, 0⟩ ⟨last, (d.area.line last).length⟩).move ⟨d.row, 0⟩
  | .deleteToLineEnd | .changeToLineEnd =>
    d.cut d.area.cursor ⟨d.row, (d.area.line d.row).length⟩
  | .pasteAfter => d.paste true count
  | .pasteBefore => d.paste false count
  | .undo => { d with area := d.area.undo }
  | .redo => { d with area := d.area.redo }
  | .deleteSelection | .changeSelection => d.takeSelection true
  | .yankSelection => d.takeSelection false

def refusal? (d : Desk) (count : Nat) : EditName → Option Text.CopyError
  | .pasteAfter | .pasteBefore =>
    if d.state.unnamed.isEmpty then none else Text.copyError? d.room count d.state.unnamed
  | _ => none

def applyEdit (d : Desk) (name : String) (count : Nat) : Desk × Option Failure :=
  match EditName.names.lookup name with
  | none => (d, none)
  | some e => match d.refusal? count e with
    | some f => (d, some (.copies f))
    | none => (d.edit count e, none)

end Desk
end ModalEditing
