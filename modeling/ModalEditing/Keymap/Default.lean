import ModalEditing.Keymap.Basic

namespace ModalEditing.Keymap

def motions : List (String × String) :=
  [("h", "move-left"), ("l", "move-right"), ("j", "move-down"), ("k", "move-up"),
   ("w", "word-forward"), ("b", "word-backward"), ("e", "word-end"), ("0", "line-home"),
   ("$", "line-end"), ("^", "visual-line-home"), ("gg", "buffer-home"), ("G", "buffer-end")]

def visualMotions : List (String × String) :=
  [("h", "select-left"), ("l", "select-right"), ("j", "select-down"), ("k", "select-up"),
   ("w", "select-word-forward"), ("b", "select-word-backward"), ("e", "select-word-end"),
   ("0", "select-line-home"), ("$", "select-line-end"), ("^", "select-visual-line-home"),
   ("gg", "select-buffer-home"), ("G", "select-buffer-end")]

structure Entry where
  action : String
  mode : Mode
deriving DecidableEq

def modeEntries : List (String × Entry) :=
  [("i", ⟨"insert", .insert⟩), ("I", ⟨"insert-line-start", .insert⟩), ("a", ⟨"append", .insert⟩),
   ("A", ⟨"append-line-end", .insert⟩), ("o", ⟨"open-below", .insert⟩), ("O", ⟨"open-above", .insert⟩),
   ("v", ⟨"visual", .visual⟩), ("V", ⟨"visual-line", .visualLine⟩)]

/-- An edit, whether it takes a count, and the mode it enters if it leaves the present one. -/
structure Edit where
  action : String
  counted : Bool
  mode : Option Mode
deriving DecidableEq

def normalEdits : List (String × Edit) :=
  [("dd", ⟨"delete-line", true, none⟩), ("cc", ⟨"change-line", true, some .insert⟩),
   ("yy", ⟨"yank-line", true, none⟩), ("x", ⟨"delete-char", true, none⟩),
   ("p", ⟨"paste-after", true, none⟩), ("P", ⟨"paste-before", true, none⟩), ("u", ⟨"undo", false, none⟩),
   ("ctrl+r", ⟨"redo", false, none⟩), ("D", ⟨"delete-to-line-end", false, none⟩),
   ("C", ⟨"change-to-line-end", false, some .insert⟩)]

def visualEdits : List (String × Edit) :=
  [("d", ⟨"delete-selection", false, some .normal⟩), ("x", ⟨"delete-selection", false, some .normal⟩),
   ("c", ⟨"change-selection", false, some .insert⟩), ("y", ⟨"yank-selection", false, some .normal⟩)]

def searches : List (String × String) :=
  [("/", "search-forward"), ("?", "search-backward"), ("n", "search-next"), ("N", "search-prev")]

private def builtInBinding (group : Group) (kind : BindingKind) (keys action : String) (counted : Bool)
    (mode : Option Mode) : List Binding :=
  (Binding.make (Binding.sequenceOf keys) group.name kind.name action counted
    (mode.map Mode.name)).toOption.toList

def defaults : List Binding :=
  motions.flatMap (fun (k, a) => builtInBinding .normal .motion k a true none)
    ++ normalEdits.flatMap (fun (k, e) => builtInBinding .normal .edit k e.action e.counted e.mode)
    ++ modeEntries.flatMap (fun (k, e) => builtInBinding .normal .modeChange k e.action false (some e.mode))
    ++ searches.flatMap (fun (k, a) => builtInBinding .normal .search k a false none)
    ++ visualMotions.flatMap (fun (k, a) => builtInBinding .visual .motion k a true none)
    ++ visualEdits.flatMap (fun (k, e) => builtInBinding .visual .edit k e.action e.counted e.mode)

/-- Registers the built-in bindings and then `extra`, which replace those they clash with. -/
def loadDefaults (t : Keymap) (replace : Bool := false) (extra : List Binding := []) :
    Keymap × Option Conflict :=
  match t.registerMany replace defaults with
  | (t, some e) => (t, some e)
  | (t, none) => t.registerMany true extra

def builtIn : Keymap := (loadDefaults { logger := some "vim_interpreter.keymaps" }).1

end ModalEditing.Keymap
