import ModalEditing.Editor
import ModalEditing.Keymap.Default
import ModalEditing.Settings.Store

namespace ModalEditing

structure SearchBox where
  placeholder : String := "search"
  value : String := ""
  active : Bool := false
deriving DecidableEq

/-- What a screen shows: a text on the status line, or the search box with the focus. -/
inductive Shown
  | status (text : String)
  | focusSearch
deriving DecidableEq

/-- `mounted` counts how often the screen was set up; each time one more listener writes the status
line. Before the first time keys go to the text area alone. -/
structure Screen where
  editor : Editor
  shelf : Store.Shelf
  search : SearchBox := {}
  mounted : Nat := 0
  shown : List Shown := []

namespace Screen

def layout : List (String × Option String) :=
  [("Header", none), ("VimTextArea", some "editor"), ("Input", some "search"),
   ("Static", some "status-line"), ("Footer", none)]

inductive Failure
  | editor (e : Editor.Failure)
  | store (e : Store.Failure)
deriving DecidableEq

def start (shelf : Store.Shelf) (depth : Nat) (text : Text) (enabled : Option Bool) :
    Except Store.Failure Screen := do
  let (shelf, flag) ← match enabled with
    | some b => .ok (shelf, b)
    | none => shelf.loadEnabled depth
  let desk : Desk := { state := { enabled := flag }, area := { text } }
  return { editor := { desk, table := .builtIn }, shelf }

def state (s : Screen) : State := s.editor.desk.state

def area (s : Screen) : TextArea := s.editor.desk.area

def withArea (s : Screen) (f : TextArea → TextArea) : Screen :=
  { s with editor.desk.area := f s.area }

def withState (s : Screen) (st : State) : Screen := { s with editor.desk.state := st }

def display (s : Screen) (what : List Shown) : Screen := { s with shown := s.shown ++ what }

def openSearch (s : Screen) (d : Direction) : Screen :=
  let mark := match d with
    | .forward => "/"
    | .backward => "?"
  Screen.display { s with search := { placeholder := mark, value := "", active := true } } [.focusSearch]

/-- Acts on outputs one by one: the status line follows the state, and the settings file the flag. A
file that refuses the flag ends the call there, with the state of the moment. -/
def settle (s : Screen) (ds : Store.Depths) : List Output → Screen × Option Store.Failure
  | [] => (s, none)
  | .moment ⟨.event (.enabled b), st⟩ :: rest =>
    match s.shelf.set ds Store.Shelf.enabledKey (.bool b) with
    | (shelf, .error e) => ({ s with shelf := shelf }.withState st, some e)
    | (shelf, .ok _) => settle { s with shelf := shelf } ds rest
  | .moment ⟨.event (.state _), st⟩ :: rest =>
    (s.display (List.replicate s.mounted (.status st.status))).settle ds rest
  | .request d :: rest => (s.openSearch d).settle ds rest
  | _ :: rest => s.settle ds rest

def take (s : Screen) (ds : Store.Depths) (e : Editor) : Screen × Option Store.Failure :=
  let (e, outputs) := e.flush
  settle { s with editor := e } ds outputs

def mount (s : Screen) : Screen :=
  let s := { s with mounted := s.mounted + 1, editor.desk.anchor := none }
  let s := s.display [.status s.state.status]
  s.withArea fun a => { a with readOnly := s.state.enabled }.focus

def typed? (p : Press) : Option Text :=
  if p.key = "enter" then some ['\n'] else p.printable?.map String.toList

/-- Sends a key to the interpreter if it wants it, and to the text area if not; says whether the
interpreter took it. -/
def press (s : Screen) (ds : Store.Depths) (p : Press) : Screen × Except Failure Bool :=
  if 0 < s.mounted && Editor.wants s.state p.key then
    let (e, outcome) := s.editor.press p
    match s.take ds e, outcome with
    | (s, some f), _ => (s, .error (.store f))
    | (s, none), .error f => (s, .error (.editor f))
    | (s, none), .ok _ => (s, .ok true)
  else match typed? p with
    | some t => (s.withArea (·.typeText t), .ok false)
    | none => (s, .ok false)

def control (s : Screen) (ds : Store.Depths) (c : State.Control) : Screen × Option Store.Failure :=
  s.take ds (s.editor.control c)

def toggle (s : Screen) (ds : Store.Depths) : Screen × Option Store.Failure :=
  match s.control ds .toggle with
  | (s, some e) => (s, some e)
  | (s, none) => (s.withArea fun a => { a with readOnly := s.state.enabled }, none)

def submit (s : Screen) (ds : Store.Depths) (value : String) : Screen × Option Store.Failure :=
  let s := { s with search.value := value, search.active := false }
  let s := s.withArea TextArea.focus
  if value = "" || s.mounted = 0 then (s, none)
  else match s.control ds (.pattern value) with
    | (s, some e) => (s, some e)
    | (s, none) =>
      let (d, _) := s.editor.desk.find value s.state.search.direction
      ({ s with editor.desk := d }, none)

end Screen
end ModalEditing
