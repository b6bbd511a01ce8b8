import ModalEditing.Text.Casing
import ModalEditing.Text.Lines
import ModalEditing.Text.Quoted

namespace ModalEditing

/-- A key: a character, or a named key such as `escape`, with the modifiers held. -/
structure Key where
  name : String
  ctrl : Bool := false
  alt : Bool := false
  shift : Bool := false
deriving DecidableEq, Inhabited

namespace Key

/-- The modifiers a token spells out, in its order. A single character implies its shift. -/
def modifiers (k : Key) : List String :=
  (if k.ctrl then ["ctrl"] else []) ++ (if k.alt then ["alt"] else [])
    ++ (if k.shift && k.name.length != 1 then ["shift"] else [])

def token (k : Key) : String :=
  String.ofList (k.modifiers.flatMap (fun m => m.toList ++ ['+']) ++ k.name.toList)

structure UnknownModifiers where
  names : List String
  token : String
deriving DecidableEq

def UnknownModifiers.message (e : UnknownModifiers) : String :=
  "Unknown modifiers " ++ Text.quoteList e.names ++ " in '" ++ e.token ++ "'"

def splitLast? : Text → Option (Text × Text)
  | [] => none
  | c :: t =>
    match splitLast? t with
    | some (head, name) => some (c :: head, name)
    | none => if c = '+' then some ([], t) else none

/-- The modifiers and the name of a token. The plus sign itself is a key: it is meant where the name
would be empty, and then the plus sign before it parts it from its modifiers. -/
def split (token : Text) : Text × Text :=
  match splitLast? token with
  | none => ([], token)
  | some (head, []) => (if head.getLast? = some '+' then head.dropLast else head, ['+'])
  | some (head, name) => (head, name)

def words (t : Text) : List String :=
  ((Text.pieces '+' t).map Text.trim).filterMap fun w =>
    if w.isEmpty then none else some (Text.lower (String.ofList w))

def modifierNames : List String := ["ctrl", "alt", "shift"]

def parse (token : String) : Except UnknownModifiers Key :=
  let (head, name) := split token.toList
  let mods := words head
  match mods.filter (!modifierNames.contains ·) with
  | [] =>
    .ok { name := String.ofList name, ctrl := mods.contains "ctrl", alt := mods.contains "alt",
          shift := mods.contains "shift" }
  | unknown => .error ⟨unknown.eraseDups.mergeSort (· ≤ ·), token⟩

def parseAll (tokens : List String) : Except UnknownModifiers (List Key) := tokens.mapM parse

end Key
end ModalEditing
