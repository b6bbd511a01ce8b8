import ModalEditing.Interpreter
import ModalEditing.Observers
import ModalEditing.Settings.Store

namespace ModalEditing

/-- A subscription of a store to an interpreter's flag; subscriptions are told apart by number. -/
structure Persist where
  id : Nat
  store : Nat
deriving DecidableEq

/-- An interpreter's state, its observers, and the subscriptions made so far, the latest first. -/
structure Bound where
  state : State
  observers : Observers Persist := {}
  subscriptions : List Persist := []

/-- A disk, the stores on it by number, the interpreters bound to them by name, and the warnings so
far. -/
structure Cabinet where
  disk : Disk
  stores : List Store
  interpreters : List (String × Bound) := []
  bindings : Nat := 0
  warnings : List Store.Warning := []

namespace Cabinet

def shelf (c : Cabinet) (store : Store) : Store.Shelf :=
  { store, disk := c.disk, warnings := c.warnings }

def putBack (c : Cabinet) (n : Nat) (s : Store.Shelf) : Cabinet :=
  { c with disk := s.disk, stores := c.stores.set n s.store, warnings := s.warnings }

def within {α : Type} (c : Cabinet) (n : Nat) (f : Store.Shelf → Store.Shelf × α) (absent : α) :
    Cabinet × α :=
  match c.stores[n]? with
  | none => (c, absent)
  | some store =>
    let (s, a) := f (c.shelf store)
    (c.putBack n s, a)

def within? {α : Type} (c : Cabinet) (n : Nat)
    (f : Store.Shelf → Except Store.Failure (Store.Shelf × α)) (absent : α) :
    Except Store.Failure (Cabinet × α) :=
  match c.stores[n]? with
  | none => .ok (c, absent)
  | some store => (f (c.shelf store)).map fun (s, a) => (c.putBack n s, a)

def current (c : Cabinet) : Nat := c.stores.length - 1

def opened (c : Cabinet) (p : Path) : Cabinet := { c with stores := c.stores ++ [{ path := p }] }

/-- Writes a flag to the stores of these subscriptions, up to the first that refuses it. -/
def persist (c : Cabinet) (ds : Store.Depths) (flag : Bool) :
    List Persist → Cabinet × Option Store.Failure
  | [] => (c, none)
  | p :: ps =>
    match c.within p.store (·.set ds Store.Shelf.enabledKey (.bool flag)) (.ok true) with
    | (c, .error e) => (c, some e)
    | (c, .ok _) => c.persist ds flag ps

/-- Tells the moments of a turn one by one. A store that refuses ends the call there, with the state of
the moment. -/
def tell (c : Cabinet) (ds : Store.Depths) (observers : Observers Persist) (final : State) :
    List Moment → Cabinet × State × Option Store.Failure
  | [] => (c, final, none)
  | ⟨.event (.enabled b), s⟩ :: rest =>
    match c.persist ds b (observers.hearing .enabled) with
    | (c, some e) => (c, s, some e)
    | (c, none) => c.tell ds observers final rest
  | _ :: rest => c.tell ds observers final rest

def put (c : Cabinet) (name : String) (b : Bound) : Cabinet :=
  { c with interpreters := Assoc.put name b c.interpreters }

def carry (c : Cabinet) (ds : Store.Depths) (name : String) (b : Bound) (t : Turn) :
    Cabinet × Option Store.Failure :=
  let (c, s, failure) := c.tell ds b.observers t.state t.moments
  (c.put name { b with state := s }, failure)

def bound (c : Cabinet) (name : String) : Bound :=
  (Assoc.get? name c.interpreters).getD { state := {} }

def control (c : Cabinet) (ds : Store.Depths) (name : String) (k : State.Control) :
    Cabinet × Option Store.Failure :=
  c.carry ds name (c.bound name) ((c.bound name).state.control k)

/-- The interpreter of this name. One not known yet is made, with the stored flag or switched off. -/
def obtain (c : Cabinet) (depth : Nat) (name : String) (restore : Bool) :
    Except Store.Failure (Cabinet × Bound) :=
  match Assoc.get? name c.interpreters with
  | some b => .ok (c, b)
  | none =>
    if restore then
      (c.within? c.current (·.loadEnabled depth) false).map fun (c, flag) =>
        (c, { state := { enabled := flag } })
    else .ok (c, { state := {} })

def bind (c : Cabinet) (depth : Nat) (name : String) (restore : Bool) :
    Except Store.Failure Cabinet := do
  let (c, b) ← c.obtain depth name restore
  let p : Persist := ⟨c.bindings, c.current⟩
  let b := { b with observers := Bus.subscribe b.observers Topic.enabled.name p,
                    subscriptions := p :: b.subscriptions }
  return { c with bindings := c.bindings + 1 }.put name b

/-- Ends the latest subscription to an interpreter's flag. -/
def unbind (c : Cabinet) (name : String) : Cabinet :=
  let b := c.bound name
  match b.subscriptions with
  | [] => c
  | p :: _ => c.put name { b with observers := Bus.unsubscribe b.observers Topic.enabled.name p }

/-- Tells an interpreter's observers of a flag that did not come from it. -/
def announce (c : Cabinet) (ds : Store.Depths) (name : String) (flag : Bool) :
    Cabinet × Option Store.Failure :=
  c.persist ds flag ((c.bound name).observers.hearing .enabled)

end Cabinet
end ModalEditing
