import ModalEditing.UnknownName

namespace ModalEditing

inductive Mode
  | normal
  | insert
  | visual
  | visualLine
deriving DecidableEq, Inhabited

inductive Group
  | normal
  | visual
deriving DecidableEq, Inhabited

def Group.name : Group → String
  | .normal => "normal"
  | .visual => "visual"

def Group.all : List Group := [.normal, .visual]

def Group.ofName? (s : String) : Option Group := all.find? (·.name = s)

namespace Mode

def name : Mode → String
  | .normal => "normal"
  | .insert => "insert"
  | .visual => "visual"
  | .visualLine => "visual-line"

def all : List Mode := [.normal, .insert, .visual, .visualLine]

def parse (s : String) : Except UnknownName Mode :=
  match all.find? (·.name = s) with
  | some m => .ok m
  | none => .error ⟨.mode, s⟩

def isVisual : Mode → Bool
  | .visual | .visualLine => true
  | .normal | .insert => false

/-- The bindings in use; while inserting there are none. -/
def group? : Mode → Option Group
  | .normal => some .normal
  | .visual | .visualLine => some .visual
  | .insert => none

theorem parse_name (m : Mode) : parse m.name = .ok m := by cases m <;> rfl

end Mode
end ModalEditing
