import ModalEditing.Json.Printer
import ModalEditing.Text.Blank

namespace ModalEditing

/-- Named texts in the order of their first writing. The unnamed register is there from the start. -/
structure Bank where
  slots : List (Char × Text) := [('"', [])]
deriving DecidableEq, Inhabited

namespace Bank

def unnamed : Char := '"'

inductive NameError
  | notSingle (literal : String)
  | surrogate (n : CodePoint)
  | unwritable (e : Number.WriteError)
deriving DecidableEq

def NameError.message : NameError → String
  | .notSingle l => "Register names are single characters, got " ++ l
  | .surrogate n => "Register names are characters, got the surrogate " ++ toString n.val
  | .unwritable e => e.message

/-- The register that a value names: a text of one character names one. Half of a surrogate pair could name
one as well, but is no `Char`: registers of such names are left out here, and the name is refused. -/
def nameOf (v : Json) : Except NameError Char :=
  match v with
  | .str [n] => match n.char? with
    | some c => .ok c
    | none => .error (.surrogate n)
  | v => match v.literal with
    | .ok l => .error (.notSingle l)
    | .error e => .error (.unwritable e)

def get (b : Bank) (name : Char) : Text := (Assoc.get? name b.slots).getD []

/-- Writes a register. The unnamed one follows every write. -/
def set (b : Bank) (name : Char) (text : Text) : Bank :=
  let slots := Assoc.put name text b.slots
  ⟨if name = unnamed then slots else Assoc.put unnamed text slots⟩

/-- Writes each register in turn, up to the first name that is none. -/
def load (b : Bank) : List (String × Text) → Bank × Option NameError
  | [] => (b, none)
  | (name, text) :: rest =>
    match nameOf (.string name) with
    | .error e => (b, some e)
    | .ok c => load ⟨Assoc.put c text b.slots⟩ rest

def names (b : Bank) : List Char := b.slots.map (·.1)

inductive LookupError
  | list
  | object
deriving DecidableEq

def LookupError.message : LookupError → String
  | .list => "unhashable type: 'list'"
  | .object => "unhashable type: 'dict'"

def contains (b : Bank) : Json → Except LookupError Bool
  | .arr _ => .error .list
  | .obj _ => .error .object
  | .str [n] => .ok (n.char?.any b.names.contains)
  | _ => .ok false

def describe (b : Bank) : String :=
  let fields := b.slots.map fun (c, t) =>
    (Json.Str.ofString (String.singleton c), Json.string (String.ofList t))
  "RegisterBank(" ++ String.ofList (Json.literalText (.obj fields)) ++ ")"

theorem get_set_self (b : Bank) (name : Char) (text : Text) : (b.set name text).get name = text := by
  unfold set get
  split
  · simp [Assoc.get?_put_self]
  · rename_i h
    rw [Assoc.get?_put_of_ne (Ne.symm h), Assoc.get?_put_self]
    rfl

end Bank
end ModalEditing
