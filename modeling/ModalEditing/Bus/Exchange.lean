import ModalEditing.Bus.Basic

namespace ModalEditing

/-- What can be done on an exchange. A script holds what a listener does each time it is called: the
first list the first time, and so on; then nothing. -/
inductive Deed (π : Type)
  | subscribe (label event : String) (script : List (List (Deed π)))
  | again (label event listener : String)
  | unsubscribe (label : String)
  | emit (event : String) (payload : π)
  | raise (text : String)

structure Listener (π : Type) where
  name : String
  script : List (List (Deed π))

/-- Listeners are known by their place in the list. A label stands for the subscription last made
under it, and a name for the last listener of that name. -/
structure Exchange (π : Type) where
  bus : Bus Nat := {}
  listeners : List (Listener π) := []
  labels : List (String × (String × Nat)) := []
  names : List (String × Nat) := []
  seen : List (String × π) := []

namespace Exchange
variable {π : Type}

inductive Stop
  | raised (text : String)
  | tooDeep
deriving DecidableEq

def add (x : Exchange π) (label event : String) (k : Nat) : Exchange π :=
  { x with bus := x.bus.subscribe event k, labels := Assoc.put label (event, k) x.labels }

def subscribe (x : Exchange π) (label event : String) (script : List (List (Deed π))) : Exchange π :=
  let k := x.listeners.length
  add { x with listeners := x.listeners ++ [⟨label, script⟩], names := Assoc.put label k x.names }
    label event k

def again (x : Exchange π) (label event listener : String) : Exchange π :=
  match Assoc.get? listener x.names with
  | some k => x.add label event k
  | none => x

def unsubscribe (x : Exchange π) (label : String) : Exchange π :=
  match Assoc.get? label x.labels with
  | some (event, k) => { x with bus := x.bus.unsubscribe event k }
  | none => x

/-- Does deeds in order, up to the first that stops; `emit` delivers events. -/
def perform (emit : Exchange π → String → π → Exchange π × Option Stop) (x : Exchange π) :
    List (Deed π) → Exchange π × Option Stop
  | [] => (x, none)
  | .subscribe label event script :: rest => perform emit (x.subscribe label event script) rest
  | .again label event listener :: rest => perform emit (x.again label event listener) rest
  | .unsubscribe label :: rest => perform emit (x.unsubscribe label) rest
  | .emit event payload :: rest =>
    match emit x event payload with
    | (x, none) => perform emit x rest
    | (x, some s) => (x, some s)
  | .raise text :: _ => (x, some (.raised text))

def call (emit : Exchange π → String → π → Exchange π × Option Stop) (x : Exchange π) (payload : π)
    (k : Nat) : Exchange π × Option Stop :=
  match x.listeners[k]? with
  | none => (x, none)
  | some l =>
    let x := { x with seen := x.seen ++ [(l.name, payload)],
                      listeners := x.listeners.set k { l with script := l.script.tail } }
    perform emit x (l.script.head?.getD [])

def callAll (emit : Exchange π → String → π → Exchange π × Option Stop) (x : Exchange π)
    (payload : π) : List Nat → Exchange π × Option Stop
  | [] => (x, none)
  | k :: ks =>
    match call emit x payload k with
    | (x, none) => callAll emit x payload ks
    | (x, some s) => (x, some s)

/-- Delivers an event to those who listen when it begins; at most `depth` events are nested. -/
def emitWithin : (depth : Nat) → Exchange π → String → π → Exchange π × Option Stop
  | 0, x, _, _ => (x, some .tooDeep)
  | depth + 1, x, event, payload =>
    callAll (emitWithin depth) x payload (x.bus.listeners event)

mutual
def Deed.weight : Deed π → Nat
  | .subscribe _ _ script => scriptWeight script + 1
  | _ => 1

def deedsWeight : List (Deed π) → Nat
  | [] => 0
  | d :: ds => Deed.weight d + deedsWeight ds

def scriptWeight : List (List (Deed π)) → Nat
  | [] => 0
  | ds :: rest => deedsWeight ds + scriptWeight rest
end

/-- All deeds that listeners have still to do. Each nested event uses one up. -/
def weight (x : Exchange π) : Nat := x.listeners.foldr (fun l n => scriptWeight l.script + n) 0

/-- Delivers an event; scripts are finite, so the nesting ends. -/
def emit (x : Exchange π) (event : String) (payload : π) : Exchange π × Option Stop :=
  emitWithin (x.weight + 1) x event payload

def run (x : Exchange π) (d : Deed π) : Exchange π × Option Stop := perform emit x [d]

end Exchange
end ModalEditing
