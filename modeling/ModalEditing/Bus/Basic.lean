import ModalEditing.Assoc

namespace ModalEditing

/-- The listeners of each event that was ever subscribed to. -/
structure Bus (κ : Type) where
  subscribers : List (String × List κ) := []

namespace Bus
variable {κ : Type}

def listeners (b : Bus κ) (event : String) : List κ := (Assoc.get? event b.subscribers).getD []

def subscribe (b : Bus κ) (event : String) (k : κ) : Bus κ :=
  ⟨Assoc.put event (b.listeners event ++ [k]) b.subscribers⟩

/-- Ends the first subscription of this listener to the event. -/
def unsubscribe [DecidableEq κ] (b : Bus κ) (event : String) (k : κ) : Bus κ :=
  ⟨Assoc.put event ((b.listeners event).erase k) b.subscribers⟩

theorem listeners_subscribe (b : Bus κ) (event : String) (k : κ) :
    (b.subscribe event k).listeners event = b.listeners event ++ [k] := by
  simp [listeners, subscribe, Assoc.get?_put_self]

theorem listeners_unsubscribe [DecidableEq κ] (b : Bus κ) (event : String) (k : κ) :
    (b.unsubscribe event k).listeners event = (b.listeners event).erase k := by
  simp [listeners, unsubscribe, Assoc.get?_put_self]

end Bus
end ModalEditing
