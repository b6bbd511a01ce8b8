import ModalEditing.Surface.Desk

namespace ModalEditing

/-- The columns of a line at which a pattern stands, overlapping ones included. -/
def occurrences (pattern : Text) (line : Text) : List Nat := go 0 line
where
  go (col : Nat) : Text → List Nat
    | [] => if pattern.isEmpty then [col] else []
    | c :: t => if pattern.isPrefixOf (c :: t) then col :: go (col + 1) t else go (col + 1) t

def firstFrom (pattern line : Text) (col : Nat) : Option Nat :=
  (occurrences pattern line).find? (col ≤ ·)

def lastWithin (pattern line : Text) (col : Nat) : Option Nat :=
  ((occurrences pattern line).filter (· + pattern.length ≤ col)).getLast?

/-- Row by row from the cursor's around to it again: after the cursor, then in all other rows, then in
the whole of the first. -/
def findForward (ls : List Text) (pattern : Text) (l : Location) : Option Location :=
  (List.range (ls.length + 1)).findSome? fun step =>
    let row := (l.row + step) % ls.length
    (firstFrom pattern (ls.getD row []) (if step = 0 then l.col + 1 else 0)).map (⟨row, ·⟩)

def findBackward (ls : List Text) (pattern : Text) (l : Location) : Option Location :=
  (List.range (ls.length + 1)).findSome? fun step =>
    let row := (l.row + ls.length - step) % ls.length
    let line := ls.getD row []
    (lastWithin pattern line (if step = 0 then l.col else line.length)).map (⟨row, ·⟩)

namespace Desk

def find (d : Desk) (pattern : String) (direction : Direction) : Desk × Option Location :=
  let found := match direction with
    | .forward => findForward d.area.lines pattern.toList d.area.cursor
    | .backward => findBackward d.area.lines pattern.toList d.area.cursor
  match found with
  | some l => (d.move l, some l)
  | none => (d, none)

/-- A search that begins wishes for a pattern; another looks for the pattern it has. -/
def applySearch (d : Desk) (name pattern : Option String) : Desk :=
  match name.bind Direction.ofSearch?, pattern.filter (· ≠ "") with
  | some _, _ => if d.asks then d.say [.request d.state.search.direction] else d
  | none, none => d
  | none, some p =>
    let direction := d.state.search.direction
    (d.find p (if name = some "search-prev" then direction.opposite else direction)).1

end Desk
end ModalEditing
