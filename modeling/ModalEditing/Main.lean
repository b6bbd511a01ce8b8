import ModalEditing.Launch

namespace ModalEditing.CommandLine

/-- How deep the settings may be nested. -/
def depths : Store.Depths := { reading := 988, writing := 988 }

def emptyDisk : IO Disk := do
  let place := (Path.parse (← IO.currentDir).toString).parts
  return (Disk.makeDirs { home := place } "/" place.reverse).1

def fetch (d : Disk) (p : Path) : IO Disk := do
  try
    let bytes ← IO.FS.readBinFile p.toString
    let (d, _) := d.makeDirs p.parent.root p.parent.parts.reverse
    return (d.write p bytes).toOption.getD d
  catch _ => return d

def store (before after : Disk) (p : Path) : IO Unit := do
  let some bytes := (after.read p).toOption | return
  unless (before.read p).toOption = some bytes do
    try
      IO.FS.createDirAll p.parent.toString
      IO.FS.writeBinFile p.toString bytes
    catch e => IO.eprintln e.toString

partial def loop (input : IO.FS.Stream) (s : Screen) : IO Screen := do
  let line ← input.getLine
  if line.isEmpty then return s
  let key := String.ofList (Text.trim line.toList)
  let press : Press := { key, character := if key.length = 1 then some key else none }
  let (s, outcome) := s.press depths press
  if let .error e := outcome then
    IO.eprintln (match e with
      | .editor e => e.message
      | .store e => e.message)
  IO.println s.state.status
  loop input s

def run (args : List String) : IO UInt32 := do
  match Arguments.parse args with
  | .error .help =>
    IO.println Arguments.usage
    return 0
  | .error (.error e) =>
    IO.eprintln Arguments.usage
    IO.eprintln e.line
    return 2
  | .ok arguments =>
    let home := (← IO.getEnv "HOME").getD "/"
    let settings ← IO.getEnv "VIM_INTERPRETER_SETTINGS"
    let env ← match Environment.builtInPath home with
      | .ok builtIn => pure { home, settings, builtIn : Environment }
      | .error e => throw (IO.userError e.message)
    let mut disk ← emptyDisk
    if let some p := arguments.path then
      disk ← fetch disk (Path.parse p)
    if let .ok p := settingsFile env arguments then
      disk ← fetch disk p
    match launch disk depths.reading env arguments with
    | .error e =>
      IO.eprintln e.message
      return 1
    | .ok screen =>
      let s ← loop (← IO.getStdin) screen.mount
      IO.print (String.ofList s.area.text)
      store disk s.shelf.disk s.shelf.store.path
      return 0

end ModalEditing.CommandLine

def main (args : List String) : IO UInt32 := ModalEditing.CommandLine.run args
