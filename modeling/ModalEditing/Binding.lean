import ModalEditing.Action
import ModalEditing.Mode

namespace ModalEditing

inductive BindingKind
  | motion
  | edit
  | modeChange
  | search
deriving DecidableEq, Inhabited

def BindingKind.actionKind : BindingKind → ActionKind
  | .motion => .motion
  | .edit => .edit
  | .modeChange => .modeChange
  | .search => .search

def BindingKind.name (k : BindingKind) : String := k.actionKind.name

def BindingKind.parse (s : String) : Except UnknownName BindingKind :=
  match [BindingKind.motion, .edit, .modeChange, .search].find? (·.name = s) with
  | some k => .ok k
  | none => .error ⟨.bindingKind, s⟩

/-- A key, pressed once or twice, bound to an action in one group. `switchTo` names the mode that
follows; it need not be a mode's name. -/
structure Binding where
  key : String
  doubled : Bool
  group : Group
  kind : BindingKind
  action : String
  counted : Bool := true
  switchTo : Option String := none
  description : String := ""
  key_ne : key ≠ ""
  action_ne : action ≠ ""
deriving DecidableEq

namespace Binding

inductive Error
  | emptySequence
  | tooManyKeys
  | unequalKeys
  | unknownGroup
  | emptyAction
  | unknownKind (e : UnknownName)
deriving DecidableEq

def Error.message : Error → String
  | .emptySequence => "binding sequence cannot be empty"
  | .tooManyKeys => "bindings support at most two keys"
  | .unequalKeys => "two-key bindings must repeat their leader key"
  | .unknownGroup =>
    "binding mode must be one of (" ++ ", ".intercalate (Group.all.map fun g => Text.quote g.name) ++ ")"
  | .emptyAction => "binding action cannot be empty"
  | .unknownKind e => e.message

def sequence (b : Binding) : List String := if b.doubled then [b.key, b.key] else [b.key]

def leader? (b : Binding) : Option String := if b.doubled then some b.key else none

def signature (b : Binding) : String := " ".intercalate b.sequence

def readSequence (sequence : List String) : Except Error (String × Bool) :=
  if sequence.isEmpty || sequence.any (·.isEmpty) then .error .emptySequence
  else match sequence with
    | [k] => .ok (k, false)
    | [k, k'] => if k = k' then .ok (k, true) else .error .unequalKeys
    | _ => .error .tooManyKeys

def make (sequence : List String) (group kind action : String) (counted : Bool := true)
    (switchTo : Option String := none) (description : String := "") : Except Error Binding := do
  let (key, doubled) ← readSequence sequence
  let some group := Group.ofName? group | .error .unknownGroup
  if ha : action = "" then .error .emptyAction
  else if hk : key = "" then .error .emptySequence
  else match BindingKind.parse kind with
    | .error e => .error (.unknownKind e)
    | .ok kind =>
      .ok { key, doubled, group, kind, action, counted, switchTo, description, key_ne := hk,
            action_ne := ha }

/-- A text of two equal characters names a doubled key, any other text a single one. -/
def sequenceOf (keys : String) : List String :=
  match keys.toList with
  | [a, b] => if a = b then [String.singleton a, String.singleton b] else [keys]
  | _ => [keys]

end Binding
end ModalEditing
