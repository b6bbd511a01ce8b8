import ModalEditing.UnknownName

namespace ModalEditing

inductive ActionKind
  | none
  | motion
  | edit
  | modeChange
  | search
  | register
deriving DecidableEq, Inhabited

def ActionKind.name : ActionKind → String
  | .none => "none"
  | .motion => "motion"
  | .edit => "edit"
  | .modeChange => "mode-change"
  | .search => "search"
  | .register => "register"

def ActionKind.parse (s : String) : Except UnknownName ActionKind :=
  match [ActionKind.none, .motion, .edit, .modeChange, .search, .register].find? (·.name = s) with
  | some k => .ok k
  | Option.none => .error ⟨.actionKind, s⟩

/-- An editing intent. The name is that of a motion, edit, mode or search; only motions and edits
have a use for the count. -/
structure Action where
  kind : ActionKind := .none
  name : Option String := Option.none
  count : Nat := 1
  pattern : Option String := Option.none
  register : Option String := Option.none
  count_pos : 0 < count := by decide
deriving DecidableEq, Inhabited

namespace Action

inductive CountError
  | notPositive
deriving DecidableEq

def CountError.message : CountError → String
  | .notPositive => "count must be a positive integer"

def nothing : Action := {}

def isNone (a : Action) : Bool := a.kind = .none

def make (kind : ActionKind) (name : Option String) (count : Int)
    (pattern register : Option String) : Except CountError Action :=
  if h : 1 ≤ count then
    .ok { kind, name, pattern, register, count := count.toNat, count_pos := by omega }
  else .error .notPositive

def motion (name : String) (count : Int) : Except CountError Action :=
  make .motion name count .none .none

def edit (name : String) (count : Int) : Except CountError Action :=
  make .edit name count .none .none

def modeChange (name : String) : Action := { kind := .modeChange, name := name }

def search (name : String) (pattern : Option String) : Action :=
  { kind := .search, name := name, pattern := pattern }

/-- The choice of a register; no key asks for it. -/
def chooseRegister (name : String) : Action := { kind := .register, register := name }

end Action
end ModalEditing
