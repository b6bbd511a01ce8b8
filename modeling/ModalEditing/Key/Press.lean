import ModalEditing.Key.Basic
import ModalEditing.Text.Printable

namespace ModalEditing

structure Press where
  key : String
  character : Option String := none
deriving DecidableEq

namespace Press

def aliases : List (String × String) :=
  [("enter", "return"), ("esc", "escape"), ("ctrl+left_square_bracket", "escape")]

def canonical (name : String) : String := (aliases.lookup name).getD name

def printable? (p : Press) : Option String :=
  p.character.filter fun s => s.toList.length = 1 && s.toList.all Text.isPrintable

def split (key : String) : List String × String :=
  let parts := if key = "+" then ["+"] else (Text.pieces '+' key.toList).map String.ofList
  (parts.dropLast.map Text.lower, parts.getLast?.getD "")

/-- The key pressed. A character that shows stands for itself unless control or alt is held. -/
def toKey (p : Press) : Key :=
  let (mods, name) := split (canonical p.key)
  let ctrl := mods.contains "ctrl"
  let alt := mods.contains "alt" || mods.contains "meta"
  let shift := mods.contains "shift"
  match p.printable? with
  | some c =>
    if !ctrl && !alt then { name := c, shift := shift }
    else { name := canonical name, ctrl := ctrl, alt := alt, shift := shift }
  | none => { name := canonical name, ctrl := ctrl, alt := alt, shift := shift }

end Press
end ModalEditing
