import ModalEditing.Surface.Edit
import ModalEditing.Surface.Find

namespace ModalEditing

inductive EntryName
  | append
  | lineStart
  | lineEnd
  | openBelow
  | openAbove
  | visual
  | visualLine
  | normal
deriving DecidableEq

def EntryName.names : List (String × EntryName) :=
  [("append", .append), ("insert-line-start", .lineStart), ("append-line-end", .lineEnd),
   ("open-below", .openBelow), ("open-above", .openAbove), ("visual", .visual),
   ("visual-line", .visualLine), ("normal", .normal)]

namespace Desk

/-- Selects from the anchor to a location; in visual line mode, whole lines. -/
def selectTo (d : Desk) (l : Location) : Desk × Option Failure :=
  let anchor := d.anchor.getD d.area.cursor
  let select (a b : Location) : Desk := (d.move a).move b true
  if d.state.mode ≠ .visualLine then (select anchor l, none)
  else if !l.before anchor then
    (select ⟨anchor.row, 0⟩ ⟨l.row, (d.area.line l.row).length⟩, none)
  else match d.area.lines[anchor.row]? with
    | some line => (select ⟨anchor.row, line.length⟩ ⟨l.row, 0⟩, none)
    | none => (d, some .noLine)

def applyMotion (d : Desk) (name : String) (count : Nat) : Desk × Option Failure :=
  match Motion.read name with
  | (_, none) => (d, none)
  | (selects, some m) =>
    let l := m.target d.area.lines d.area.cursor count
    if selects then d.selectTo l else (d.move l, none)

def enter (d : Desk) : EntryName → Desk × Option Failure
  | .append => (d.move (Motion.right.target d.area.lines d.area.cursor 1), none)
  | .lineStart => (d.move ⟨d.row, Text.indent (d.area.line d.row)⟩, none)
  | .lineEnd => (d.move ⟨d.row, (d.area.line d.row).length⟩, none)
  | .openBelow => ((d.insert ['\n'] ⟨d.row, (d.area.line d.row).length⟩).move ⟨d.row + 1, 0⟩, none)
  | .openAbove => ((d.insert ['\n'] ⟨d.row, 0⟩).move ⟨d.row, 0⟩, none)
  | .visual => (move { d with anchor := some d.area.cursor } d.area.cursor, none)
  | .visualLine =>
    selectTo { d with anchor := some ⟨d.row, 0⟩ } ⟨d.row, (d.area.line d.row).length⟩
  | .normal => (move { d with anchor := none } d.area.cursor, none)

def applyModeChange (d : Desk) (name : String) : Desk × Option Failure :=
  match EntryName.names.lookup name with
  | some e => d.enter e
  | none => (d, none)

def actionSpan (a : Action) : Span :=
  { name := "surface::apply", component := .named "surface",
    metadata := [("kind", .string a.kind.name), ("name", (a.name.map Json.string).getD .null)] }

/-- Carries out an action by its kind; two kinds ask nothing of a text area. -/
def perform? (d : Desk) (a : Action) : Option (Desk × Option Failure) :=
  let name := a.name.getD ""
  match a.kind with
  | .motion => some (d.applyMotion name a.count)
  | .edit => some (d.applyEdit name a.count)
  | .modeChange => some (d.applyModeChange name)
  | .search => some (d.applySearch a.name a.pattern, none)
  | .none | .register => none

/-- Carries out an action. Afterwards the area takes typing in insert mode alone. -/
def apply (d : Desk) (a : Action) : Desk × Option Failure :=
  match (d.report (.enter (actionSpan a))).perform? a with
  | none => (d, none)
  | some (d, some e) => (d.report (.leave (actionSpan a) [] (some e.message)), some e)
  | some (d, none) =>
    let d := d.report (.leave (actionSpan a) [] none)
    ({ d with area.readOnly := d.state.mode ≠ .insert }, none)

end Desk
end ModalEditing
