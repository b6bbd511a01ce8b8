import ModalEditing.Journal.Basic
import ModalEditing.Journal.Report

namespace ModalEditing.Journal

structure Handle where
  logger : String
  name : String
  component : Option String
  metadata : List (String × String)
deriving DecidableEq

def Handle.scope? (h : Handle) : Option String := h.component.filter (· ≠ "")

def Handle.payload (h : Handle) (extra : List (String × String)) : List (String × String) :=
  let known := Assoc.putAll [("span", h.name)] h.metadata
  let known := match h.scope? with
    | some c => Assoc.put "component" c known
    | none => known
  Assoc.putAll known extra

def Handle.fail (h : Handle) (reason : String) : Step Unit :=
  write (.message h.logger "error" "span::fail" (h.payload [("reason", reason)]))

def Handle.add (h : Handle) (key : String) (value : Json) : Step Handle :=
  return { h with metadata := Assoc.put key (← plain value) h.metadata }

def addContext (logger : String) : List (String × Json) → Step (List (String × String))
  | [] => return []
  | (k, v) :: rest => do
    let s ← plain v
    write (.addContext logger k s)
    return (k, s) :: (← addContext logger rest)

def removeContext (logger : String) : List String → Step Unit
  | [] => return
  | k :: rest => do
    write (.removeContext logger k)
    removeContext logger rest

def enterScopes (h : Handle) : Step Unit := do
  if let some c := h.scope? then
    write (.enterComponent h.logger c)
  write (.enterProfile h.logger h.name)

def enter (s : Span) : Step Handle := do
  let log ← logger s.logger
  let metadata ← addContext log (Assoc.ofList s.metadata)
  let h : Handle := ⟨log, s.name, s.componentName, metadata⟩
  enterScopes h
  return h

def close (opened : Handle) : Step Unit := do
  removeContext opened.logger (opened.metadata.map (·.1))
  write (.exitProfile opened.logger opened.name)
  if let some c := opened.scope? then
    write (.exitComponent opened.logger c)

/-- Ends the span that was opened as `opened` and is now known as `h`. -/
def leave (opened h : Handle) (failure : Option Failure) : Step Unit := do
  if let some e := failure then
    h.fail e.message
  close opened

/-- What can be done inside a span; an attempt is at acts whose failure does not matter. -/
inductive Act
  | add (key : String) (value : Json)
  | fail (reason : String)
  | raise (text : String)
  | event (name : String)
  | span (s : Span) (body : List Act)
  | attempt (body : List Act)

mutual
def runActs (h : Handle) (j : Journal) : List Act → Journal × Handle × Option Failure
  | [] => (j, h, none)
  | a :: rest =>
    match runAct h j a with
    | (j, h, none) => runActs h j rest
    | (j, h, some e) => (j, h, some e)

def runAct (h : Handle) (j : Journal) : Act → Journal × Handle × Option Failure
  | .add key value =>
    match (h.add key value).run j with
    | .ok h j => (j, h, none)
    | .error e j => (j, h, some e)
  | .fail reason =>
    match (h.fail reason).run j with
    | .ok _ j => (j, h, none)
    | .error e j => (j, h, some e)
  | .raise text => (j, h, some (.raised text))
  | .event name =>
    match (event name (.string "info") none []).run j with
    | .ok _ j => (j, h, none)
    | .error e j => (j, h, some e)
  | .span s body =>
    match runSpan j s body with
    | (j, .ok _) => (j, h, none)
    | (j, .error e) => (j, h, some e)
  | .attempt body =>
    match runActs h j body with
    | (j, h, _) => (j, h, none)

/-- Runs acts inside a span. The failure of one passes through when the span has been closed. -/
def runSpan (j : Journal) (s : Span) (body : List Act) : Journal × Except Failure Handle :=
  match (enter s).run j with
  | .error e j => (j, .error e)
  | .ok opened j =>
    match runActs opened j body with
    | (j, h, failure) =>
      match (leave opened h failure).run j with
      | .error e j => (j, .error e)
      | .ok _ j => (j, match failure with | some e => .error e | none => .ok h)
end

def reopened (s : Span) (learnt : List (String × Json)) : Step (Handle × Handle) := do
  let log ← logger s.logger
  let metadata ← plainPairs (Assoc.ofList s.metadata)
  let h : Handle := ⟨log, s.name, s.componentName, metadata⟩
  return (h, { h with metadata := Assoc.putAll metadata (← plainPairs learnt) })

def put : Report → Step Unit
  | .event name level loggerName data => event name (.string level) loggerName data
  | .enter s => do let _ ← enter s
  | .leave s learnt failure => do
    let (opened, h) ← reopened s learnt
    leave opened h (failure.map .raised)

/-- Puts reports into the journal, up to the first that it does not take. -/
def putAll (j : Journal) : List Report → Journal × Option Failure
  | [] => (j, none)
  | r :: rs =>
    match (put r).run j with
    | .ok _ j => putAll j rs
    | .error e j => (j, some e)

end ModalEditing.Journal
