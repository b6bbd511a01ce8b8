import ModalEditing.Text.Quoted

namespace ModalEditing

inductive NameSort
  | mode
  | actionKind
  | bindingKind
  | direction
deriving DecidableEq

def NameSort.label : NameSort → String
  | .mode => "Mode"
  | .actionKind => "ActionKind"
  | .bindingKind => "BindingKind"
  | .direction => "SearchDirection"

structure UnknownName where
  sort : NameSort
  name : String
deriving DecidableEq

def UnknownName.message (e : UnknownName) : String :=
  Text.quote e.name ++ " is not a valid " ++ e.sort.label

end ModalEditing
