import ModalEditing.Proofs.Surface.Inside
import ModalEditing.Proofs.TextArea.Reading

namespace ModalEditing

def findForward? (ls : List Text) (pattern : Text) (l : Location) : Option (Option Location) :=
  (List.range (ls.length + 1)).findSomeM? fun step => do
    let row := (l.row + step) % ls.length
    let line ← ls[row]?
    return (firstFrom pattern line (if step = 0 then l.col + 1 else 0)).map (⟨row, ·⟩)

def findBackward? (ls : List Text) (pattern : Text) (l : Location) : Option (Option Location) :=
  (List.range (ls.length + 1)).findSomeM? fun step => do
    let row := (l.row + ls.length - step) % ls.length
    let line ← ls[row]?
    return (lastWithin pattern line (if step = 0 then l.col else line.length)).map (⟨row, ·⟩)

namespace Desk

def line? (d : Desk) (row : ℕ) : Option Text := d.area.lines[row]?

def move? (d : Desk) (l : Location) (select : Bool := false) : Option Desk :=
  if l.Within d.area.lines then some (d.move l select) else none

def delete? (d : Desk) (x y : Location) : Option Desk :=
  if x.Within d.area.lines ∧ y.Within d.area.lines then some (d.delete x y) else none

def insert? (d : Desk) (t : Text) (l : Location) : Option Desk :=
  if l.Within d.area.lines then some (d.insert t l) else none

def cut? (d : Desk) (x y : Location) : Option Desk := do
  let (area, t) ←
    if x.Within d.area.lines ∧ y.Within d.area.lines then some (d.area.range x y) else none
  let d ← (yank { d with area := area } t).delete? x y
  d.move? x

def deleteRows? (d : Desk) (first last : ℕ) : Option Desk := do
  let lastLine ← d.line? last
  let stop : Location := ⟨last, lastLine.length⟩
  if last < d.area.lastRow then
    let d ← d.delete? ⟨first, 0⟩ ⟨last + 1, 0⟩
    let line ← d.line? first
    d.move? ⟨first, Text.indent line⟩
  else if 0 < first then
    let above ← d.line? (first - 1)
    let d ← d.delete? ⟨first - 1, above.length⟩ stop
    let line ← d.line? (first - 1)
    d.move? ⟨first - 1, Text.indent line⟩
  else
    let d ← d.delete? ⟨0, 0⟩ stop
    d.move? ⟨0, 0⟩

def paste? (d : Desk) (after : Bool) (count : ℕ) : Option Desk := do
  let t := d.state.unnamed
  let line ← d.line? d.row
  if t.isEmpty then return d
  else if t.getLast? = some '\n' then
    let block := Text.copies count t
    if after && d.row = d.area.lastRow then
      let d' ← d.insert? ('\n' :: block.dropLast) ⟨d.row, line.length⟩
      d'.move? ⟨d.row + 1, 0⟩
    else
      let row := if after then d.row + 1 else d.row
      let d' ← d.insert? block ⟨row, 0⟩
      d'.move? ⟨row, 0⟩
  else
    d.insert? (Text.copies count t) ⟨d.row, if after then min line.length (d.col + 1) else d.col⟩

def rows? (d : Desk) (count : ℕ) : Option (ℕ × Text) := do
  let last := min d.area.lastRow (d.row + count - 1)
  let ls ← (List.range' d.row (last + 1 - d.row)).mapM d.line?
  return (last, Text.joinLines ls ++ ['\n'])

def takeSelection? (d : Desk) (remove : Bool) : Option Desk := do
  let (x, y) := d.area.selection.start.ordered d.area.selection.stop
  let d := d.yank d.area.selectedText
  let d ← if remove then d.delete? x y else some d
  let d ← d.move? x
  return { d with anchor := none }

def edit? (d : Desk) (count : ℕ) : EditName → Option Desk
  | .deleteChar => do
    let line ← d.line? d.row
    d.cut? d.area.cursor ⟨d.row, min line.length (d.col + count)⟩
  | .yankLine => do
    let (_, t) ← d.rows? count
    return d.yank t
  | .deleteLine => do
    let (last, t) ← d.rows? count
    (d.yank t).deleteRows? d.row last
  | .changeLine => do
    let (last, t) ← d.rows? count
    let line ← d.line? last
    let d' ← (d.yank t).delete? ⟨d.row, 0⟩ ⟨last, line.length⟩
    d'.move? ⟨d.row, 0⟩
  | .deleteToLineEnd | .changeToLineEnd => do
    let line ← d.line? d.row
    d.cut? d.area.cursor ⟨d.row, line.length⟩
  | .pasteAfter => d.paste? true count
  | .pasteBefore => d.paste? false count
  | .undo => some { d with area := d.area.undo }
  | .redo => some { d with area := d.area.redo }
  | .deleteSelection | .changeSelection => d.takeSelection? true
  | .yankSelection => d.takeSelection? false

/-- An edit that is refused has read the cursor's row at most. -/
def applyEdit? (d : Desk) (name : String) (count : ℕ) : Option (Desk × Option Failure) :=
  match EditName.names.lookup name with
  | none => some (d, none)
  | some e => match d.refusal? count e with
    | some f => (d.line? d.row).map fun _ => (d, some (.copies f))
    | none => (d.edit? count e).map fun d => (d, none)

def selectTo? (d : Desk) (l : Location) : Option Desk := do
  let anchor := d.anchor.getD d.area.cursor
  let select (a b : Location) : Option Desk := d.move? a >>= fun d => d.move? b true
  if d.state.mode ≠ .visualLine then select anchor l
  else if !l.before anchor then
    let line ← d.line? l.row
    select ⟨anchor.row, 0⟩ ⟨l.row, line.length⟩
  else
    let line ← d.line? anchor.row
    select ⟨anchor.row, line.length⟩ ⟨l.row, 0⟩

def applyMotion? (d : Desk) (name : String) (count : ℕ) : Option Desk :=
  match Motion.read name with
  | (_, none) => some d
  | (selects, some m) => do
    let l ← m.target? d.area.lines d.area.cursor count
    if selects then d.selectTo? l else d.move? l

def enter? (d : Desk) : EntryName → Option Desk
  | .append => do
    let l ← Motion.right.target? d.area.lines d.area.cursor 1
    d.move? l
  | .lineStart => do
    let line ← d.line? d.row
    d.move? ⟨d.row, Text.indent line⟩
  | .lineEnd => do
    let line ← d.line? d.row
    d.move? ⟨d.row, line.length⟩
  | .openBelow => do
    let line ← d.line? d.row
    let d' ← d.insert? ['\n'] ⟨d.row, line.length⟩
    d'.move? ⟨d.row + 1, 0⟩
  | .openAbove => do
    let d' ← d.insert? ['\n'] ⟨d.row, 0⟩
    d'.move? ⟨d.row, 0⟩
  | .visual => move? { d with anchor := some d.area.cursor } d.area.cursor
  | .visualLine => do
    let line ← d.line? d.row
    selectTo? { d with anchor := some ⟨d.row, 0⟩ } ⟨d.row, line.length⟩
  | .normal => move? { d with anchor := none } d.area.cursor

def applyModeChange? (d : Desk) (name : String) : Option Desk :=
  match EntryName.names.lookup name with
  | some e => d.enter? e
  | none => some d

def find? (d : Desk) (pattern : String) (direction : Direction) : Option Desk := do
  let found ← match direction with
    | .forward => findForward? d.area.lines pattern.toList d.area.cursor
    | .backward => findBackward? d.area.lines pattern.toList d.area.cursor
  found.elim (some d) fun l => d.move? l

def applySearch? (d : Desk) (name pattern : Option String) : Option Desk :=
  match name.bind Direction.ofSearch?, pattern.filter (· ≠ "") with
  | some _, _ => some (if d.asks then d.say [.request d.state.search.direction] else d)
  | none, none => some d
  | none, some p =>
    let direction := d.state.search.direction
    d.find? p (if name = some "search-prev" then direction.opposite else direction)

/-- What an action has come to is reported. Afterwards the area takes typing in insert mode alone. -/
def finish (a : Action) : Desk × Option Failure → Desk × Option Failure
  | (d, some e) => (d.report (.leave (actionSpan a) [] (some e.message)), some e)
  | (d, none) =>
    let d := d.report (.leave (actionSpan a) [] none)
    ({ d with area.readOnly := d.state.mode ≠ .insert }, none)

def carryOut? (d : Desk) (a : Action) : Option (Desk × Option Failure) :=
  let now := d.begun a
  let name := a.name.getD ""
  match a.kind with
  | .motion => (now.applyMotion? name a.count).map fun d => finish a (d, none)
  | .edit => (now.applyEdit? name a.count).map (finish a)
  | .modeChange => (now.applyModeChange? name).map fun d => finish a (d, none)
  | .search => (now.applySearch? a.name a.pattern).map fun d => finish a (d, none)
  | .none | .register => some (d, none)

/-- A careful run does not stop before it comes to a desk, and the desk is there by calls that name only
locations of the text. -/
structure Careful (d : Desk) (run : Option Desk) (d' : Desk) : Prop where
  goes : run = some d'
  calls : ∃ cs, d'.area = d.area.obeyAll cs ∧ d.area.AllWithin cs

namespace Careful
variable {d d₁ d₂ : Desk} {run : Option Desk}

theorem done (h : d₁.area = d.area) : Careful d (some d₁) d₁ := ⟨rfl, [], h, trivial⟩

theorem yank (t : Text) (h : Careful (d.yank t) run d₂) : Careful d run d₂ := ⟨h.goes, h.calls⟩

theorem anchored (l : Option Location) (h : Careful { d with anchor := l } run d₂) :
    Careful d run d₂ := ⟨h.goes, h.calls⟩

theorem bind {f : Desk → Option Desk} (h : Careful d run d₁) (hf : Careful d₁ (f d₁) d₂) :
    Careful d (run >>= f) d₂ := by
  obtain ⟨rfl, cs, harea, hcs⟩ := h
  obtain ⟨hgoes, cs', harea', hcs'⟩ := hf
  rw [harea] at harea' hcs'
  exact ⟨hgoes, cs ++ cs', by rw [harea', TextArea.obeyAll_append], hcs.append hcs'⟩

/-- A row that is there is read. -/
theorem read {row : ℕ} {f : Text → Option Desk} (h : row < d.area.lines.length)
    (hf : Careful d₁ (f (d.area.line row)) d₂) : Careful d₁ (d.line? row >>= f) d₂ := by
  have hread : d.line? row = some (d.area.line row) := Motion.getElem?_eq_lineOf h
  rw [hread]
  exact hf

/-- A call that names locations of the text, and a run after it. -/
theorem after {c : Call} (hc : c.Within d.area.lines) (ha : d₁.area = d.area.obey c)
    (h : Careful d₁ run d₂) : Careful d run d₂ := by
  obtain ⟨hgoes, cs, harea, hcs⟩ := h
  rw [ha] at harea hcs
  exact ⟨hgoes, c :: cs, harea, hc, hcs⟩

end Careful

section Calls
variable {d : Desk} {x y l : Location}

theorem careful_move (h : l.Within d.area.lines) (select : Bool := false) :
    Careful d (d.move? l select) (d.move l select) := by
  rw [move?, if_pos h]
  exact (Careful.done rfl).after (c := .move l select) h rfl

theorem careful_delete (hx : x.Within d.area.lines) (hy : y.Within d.area.lines) :
    Careful d (d.delete? x y) (d.delete x y) := by
  rw [delete?, if_pos ⟨hx, hy⟩]
  exact (Careful.done rfl).after (c := .delete x y) ⟨hx, hy⟩ rfl

theorem careful_insert (h : l.Within d.area.lines) (t : Text) :
    Careful d (d.insert? t l) (d.insert t l) := by
  rw [insert?, if_pos h]
  exact (Careful.done rfl).after (c := .insert t l) h rfl

/-- What is deleted from an earlier location to a later one leaves the earlier one to go to. -/
theorem careful_delete_move (hx : x.Within d.area.lines) (hy : y.Within d.area.lines)
    (h : y.before x = false) :
    Careful d (d.delete? x y >>= fun d => d.move? x) ((d.delete x y).move x) :=
  (careful_delete hx hy).bind (careful_move (TextArea.within_delete hx hy h))

/-- After a deletion the row where it began is read, to go to where its text begins. -/
theorem careful_delete_indent (hx : x.Within d.area.lines) (hy : y.Within d.area.lines)
    (h : y.before x = false) :
    Careful d (d.delete? x y >>= fun d => d.line? x.row >>= fun line => d.move? ⟨x.row, Text.indent line⟩)
      ((d.delete x y).move ⟨x.row, Text.indent ((d.delete x y).area.line x.row)⟩) := by
  have hrow := (TextArea.within_delete hx hy h).row
  exact (careful_delete hx hy).bind (.read hrow (careful_move ⟨hrow, Text.indent_le_length _⟩))

theorem careful_insert_move (h : l.Within d.area.lines) (t : Text) :
    Careful d (d.insert? t l >>= fun d => d.move? l) ((d.insert t l).move l) :=
  (careful_insert h t).bind (careful_move (TextArea.within_insert h t))

/-- What is put in with a newline leaves a row behind that in which it begins. -/
theorem careful_insert_below (h : l.Within d.area.lines) {t : Text} (ht : '\n' ∈ t) :
    Careful d (d.insert? t l >>= fun d => d.move? ⟨l.row + 1, 0⟩)
      ((d.insert t l).move ⟨l.row + 1, 0⟩) := by
  have hmore := TextArea.length_lines_insert h ht
  have hrow : l.row + 1 < (d.area.insert t l).lines.length := Nat.lt_of_le_of_lt h.row hmore
  exact (careful_insert h t).bind (careful_move (TextArea.within_row hrow))

theorem careful_cut (hx : x.Within d.area.lines) (hy : y.Within d.area.lines)
    (h : y.before x = false) : Careful d (d.cut? x y) (d.cut x y) := by
  let now : Desk := { d with area := (d.area.range x y).1 }
  let t := (d.area.range x y).2
  have hdelete : Careful (now.yank t) ((now.yank t).delete? x y >>= fun d => d.move? x)
    (((now.yank t).delete x y).move x) := careful_delete_move hx hy h
  rw [cut?, if_pos ⟨hx, hy⟩]
  exact hdelete.after (c := .range x y) ⟨hx, hy⟩ rfl

end Calls

end Desk
end ModalEditing
