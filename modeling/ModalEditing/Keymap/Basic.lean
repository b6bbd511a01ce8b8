import ModalEditing.Binding

namespace ModalEditing

/-- The bindings of each group in the order of their registration, and the number of changes so far. -/
structure Keymap where
  normal : List Binding := []
  visual : List Binding := []
  revision : Nat := 0
  logger : Option String := none
deriving DecidableEq

namespace Keymap

structure Conflict where
  binding : Binding
  conflicts : List Binding
deriving DecidableEq

def Conflict.message (c : Conflict) : String :=
  "Binding '" ++ c.binding.signature ++ "' (" ++ c.binding.group.name ++ ") conflicts with "
    ++ Text.quoteList (c.conflicts.map Binding.signature)

def bucket (t : Keymap) : Group → List Binding
  | .normal => t.normal
  | .visual => t.visual

def change (t : Keymap) (g : Group) (bs : List Binding) : Keymap :=
  match g with
  | .normal => { t with normal := bs, revision := t.revision + 1 }
  | .visual => { t with visual := bs, revision := t.revision + 1 }

def bindings (t : Keymap) : List Binding := t.normal ++ t.visual

def find? (t : Keymap) (g : Group) (sequence : List String) : Option Binding :=
  (t.bucket g).find? (·.sequence = sequence)

def lookup (t : Keymap) (group : String) (sequence : List String) : Option Binding :=
  (Group.ofName? group).bind fun g => t.find? g sequence

/-- The bindings that clash: one with the same keys, and one with the same key the other number of
times. -/
def conflicts (t : Keymap) (b : Binding) : List Binding :=
  let other := if b.doubled then [b.key] else [b.key, b.key]
  (t.find? b.group b.sequence).toList ++ (t.find? b.group other).toList

/-- Adds a binding at the end of its group. With `replace` those it clashes with go first. -/
def register (t : Keymap) (b : Binding) (replace : Bool := false) : Except Conflict Keymap :=
  let cs := t.conflicts b
  if !cs.isEmpty && !replace then .error ⟨b, cs⟩
  else
    let kept := (t.bucket b.group).filter fun x => !(cs.map Binding.sequence).contains x.sequence
    .ok (t.change b.group (kept ++ [b]))

/-- Registers bindings in turn, up to the first that clashes. -/
def registerMany (t : Keymap) (replace : Bool) : List Binding → Keymap × Option Conflict
  | [] => (t, none)
  | b :: bs =>
    match t.register b replace with
    | .ok t => registerMany t replace bs
    | .error e => (t, some e)

def unregister (t : Keymap) (group : String) (sequence : List String) : Keymap × Option Binding :=
  match Group.ofName? group with
  | none => (t, none)
  | some g =>
    match t.find? g sequence with
    | none => (t, none)
    | some b => (t.change g ((t.bucket g).filter (·.sequence ≠ sequence)), some b)

def isLeader (t : Keymap) (g : Group) (key : String) : Bool :=
  (t.bucket g).any (·.leader? = some key)

def leaders (t : Keymap) (g : Group) : List String :=
  ((t.bucket g).filterMap Binding.leader?).eraseDups.mergeSort (· ≤ ·)

def select (t : Keymap) : Option String → List Binding
  | none => t.bindings
  | some group => ((Group.ofName? group).map t.bucket).getD []

def leadersOf (t : Keymap) (group : String) : List String :=
  ((Group.ofName? group).map t.leaders).getD []

def groups (t : Keymap) : List Group := Group.all.filter fun g => !(t.bucket g).isEmpty

end Keymap
end ModalEditing
