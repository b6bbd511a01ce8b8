import ModalEditing.Bus.Basic
import ModalEditing.Turn

namespace ModalEditing

abbrev Observers (κ : Type) := Bus κ

namespace Observers
variable {κ : Type}

def hearing (b : Observers κ) (t : Topic) : List κ := Bus.listeners b t.name

def deliveries (b : Observers κ) (es : List Event) : List (κ × Event) :=
  es.flatMap fun e => (hearing b e.topic).map (·, e)

end Observers
end ModalEditing
