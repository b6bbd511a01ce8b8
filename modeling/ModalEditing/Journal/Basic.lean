import ModalEditing.Journal.Entry
import ModalEditing.Json.Printer
import ModalEditing.Text.Casing

namespace ModalEditing

/-- What was read of the environment once, when the library was loaded: the logger meant where none is
named, and the file to write to where the environment names none. -/
structure Journal.Defaults where
  logger : String := "vim_interpreter"
  file : String := ""
deriving DecidableEq

/-- The variables in effect, the configurations made, the active one, the loggers with the
configuration each was built with, and all calls so far. -/
structure Journal where
  defaults : Journal.Defaults := {}
  env : List (String × String) := []
  configs : Nat := 0
  active : Option Journal.ConfigId := none
  loggers : List (String × Journal.ConfigId) := []
  entries : List Journal.Entry := []

namespace Journal

inductive Failure
  | badBufferSize (e : Number.ReadError)
  | unwritable (e : Number.WriteError)
  | configAndPreset
  | unknownPreset (name : String)
  | unsupportedLevel (text : String)
  | raised (text : String)
deriving DecidableEq

def Failure.message : Failure → String
  | .badBufferSize e => e.message
  | .unwritable e => e.message
  | .configAndPreset => "Provide either \x60config\x60 or \x60preset\x60, not both."
  | .unknownPreset name => "Unknown preset '" ++ name ++ "'."
  | .unsupportedLevel text => "Unsupported log level '" ++ text ++ "'."
  | .raised text => text

/-- A step on the journal. What a failing step has done stays done. -/
abbrev Step := EStateM Failure Journal

def write (e : Entry) : Step Unit := modify fun j => { j with entries := j.entries ++ [e] }

def var? (name : String) : Step (Option String) := return Assoc.get? name (← get).env

def nonempty? (name : String) : Step (Option String) := return (← var? name).filter (· ≠ "")

def flag (name : String) : Step Bool := do
  match ← var? name with
  | none => return false
  | some v =>
    return ["1", "true", "yes", "on"].contains (Text.lower (String.ofList (Text.trim v.toList)))

def newConfig : Step ConfigId := do
  modify fun j => { j with configs := j.configs + 1 }
  let n := (← get).configs
  write (.newConfig n)
  return n

def set (config : ConfigId) (name : String) (value : Json) : Step Unit :=
  write (.setting config name value)

inductive Preset
  | development
  | production
  | performance
deriving DecidableEq

def Preset.ofName? (name : String) : Option Preset :=
  [("development", Preset.development), ("production", .production), ("performance", .performance),
   ("performance_analysis", .performance)].lookup (Text.lower name)

/-- The file to write to. A variable that is set and empty leaves the choice to the preset. -/
def logFile (fallback : String) : Step String := do
  let file := (← var? "LOG_FILE").getD (← get).defaults.file
  return if file = "" then fallback else file

def buildPreset : Preset → Step ConfigId
  | .development => do
    let c ← newConfig
    set c "with_min_level" (.string "DEBUG")
    set c "with_console_output" (.bool true)
    set c "with_colored_output" (.bool true)
    set c "with_json_format" (.bool false)
    return c
  | .production => do
    let c ← newConfig
    set c "with_min_level" (.string "INFO")
    set c "with_console_output" (.bool false)
    set c "with_file_output" (.string (← logFile "vim_interpreter.log"))
    set c "with_buffering" (.bool true)
    return c
  | .performance => do
    let c ← newConfig
    set c "with_min_level" (.string "DEBUG")
    set c "with_console_output" (.bool false)
    set c "with_json_format" (.bool true)
    set c "with_buffering" (.bool true)
    set c "with_file_output" (.string (← logFile "vim_interpreter-performance.log"))
    return c

def setConsole (c : ConfigId) : Step Unit := do
  let console := !(← flag "DISABLE_CONSOLE")
  set c "with_console_output" (.bool console)
  if console then
    set c "with_colored_output" (.bool !(← flag "NO_COLOR"))

def setFormat (c : ConfigId) : Step Unit := do
  if ← flag "LOG_JSON" then
    set c "with_json_format" (.bool true)

def setFile (c : ConfigId) : Step Unit := do
  let file := (← nonempty? "LOG_FILE").getD (← get).defaults.file
  if file ≠ "" then
    set c "with_file_output" (.string file)

def setBuffering (c : ConfigId) : Step Unit := do
  if ← flag "LOG_BUFFERED" then
    set c "with_buffering" (.bool true)
    match Number.read ((← nonempty? "LOG_BUFFER_SIZE").getD "2048") with
    | .ok n => set c "with_buffer_size" (.int n)
    | .error e => throw (.badBufferSize e)

def buildDefault : Step ConfigId := do
  let c ← newConfig
  set c "with_min_level" (.string (Text.upper ((← nonempty? "LOG_LEVEL").getD "WARNING")))
  setConsole c
  setFormat c
  setFile c
  setBuffering c
  return c

/-- Makes a configuration the active one. Loggers built with another are forgotten. -/
def adopt (c : ConfigId) : Step Unit := do
  set c "with_profiling" (.bool true)
  modify fun j => { j with active := some c, loggers := [] }

/-- Adopts the configuration given, or that of a preset, or that of the environment. -/
def configure (config : Option ConfigId) (preset : Option String) : Step Unit := do
  match config, preset.filter (· ≠ "") with
  | some _, some _ => throw .configAndPreset
  | some c, none => adopt c
  | none, some name =>
    match Preset.ofName? name with
    | some p => adopt (← buildPreset p)
    | none => throw (.unknownPreset name)
  | none, none => adopt (← buildDefault)

/-- The active configuration; where there is none yet, the environment's becomes it. -/
def ensureConfig : Step ConfigId := do
  if let some c := (← get).active then return c
  let c ← buildDefault
  adopt c
  return c

def Defaults.nameOr (d : Defaults) (name : Option String) : String := (name.filter (· ≠ "")).getD d.logger

/-- The logger of this name, built with the active configuration the first time it is wanted. -/
def logger (name : Option String) : Step String := do
  let name := (← get).defaults.nameOr name
  if (Assoc.get? name (← get).loggers).isSome then return name
  let c ← ensureConfig
  write (.newLogger name c)
  modify fun j => { j with loggers := Assoc.put name c j.loggers }
  return name

def plain (v : Json) : Step String :=
  match v.plain with
  | .ok s => return s
  | .error e => throw (.unwritable e)

def plainPairs (data : List (String × Json)) : Step (List (String × String)) :=
  data.mapM fun (k, v) => return (k, ← plain v)

/-- The levels whose messages carry data. -/
def levels : List String := ["debug", "info", "warning", "error", "critical"]

/-- Sends a message. On the level `trace`, which carries no data, they become part of the text. -/
def send (logger : String) (level : Json) (text : String) (data : List (String × Json)) : Step Unit := do
  let shown ← plain level
  let name := Text.lower shown
  if levels.contains name then
    write (.message logger name text (← plainPairs data))
  else if name = "trace" then
    let fields := data.map fun (k, v) => (Json.Str.ofString k, v)
    write (.trace logger (text ++ " " ++ (← plain (.obj fields))))
  else throw (.unsupportedLevel shown)

def event (name : String) (level : Json) (loggerName : Option String)
    (data : List (String × Json)) : Step Unit := do
  let payload := Assoc.putAll [("event", .string name)] data
  send (← logger loggerName) level ("event::" ++ name) payload

end Journal
end ModalEditing
