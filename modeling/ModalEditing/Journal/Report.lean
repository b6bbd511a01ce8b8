import ModalEditing.Json.Basic

namespace ModalEditing

/-- The component that a span belongs to: none, one named like the span, or one of its own name. -/
inductive Component
  | none
  | own
  | named (id : String)
deriving DecidableEq

/-- A stretch of work: its name, the logger it is reported to, the component it belongs to, and what
is known of it from the start. -/
structure Span where
  name : String
  logger : Option String := Option.none
  component : Component := .none
  metadata : List (String × Json) := []

def Span.componentName (s : Span) : Option String :=
  match s.component with
  | .none => none
  | .own => some s.name
  | .named id => if id = "" then none else some id

/-- An event, the start of a span, or its end with what was learnt of it and why it failed if it did. -/
inductive Report
  | event (name level : String) (logger : Option String) (data : List (String × Json))
  | enter (s : Span)
  | leave (s : Span) (learnt : List (String × Json)) (failure : Option String)

def Span.around (s : Span) (learnt : List (String × Json)) (failure : Option String)
    (inner : List Report := []) : List Report :=
  .enter s :: inner ++ [.leave s learnt failure]

end ModalEditing
