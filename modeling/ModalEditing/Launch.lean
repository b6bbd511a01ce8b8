import ModalEditing.Arguments
import ModalEditing.Screen
import ModalEditing.Settings.Environment

namespace ModalEditing

inductive LaunchFailure
  | file (e : Disk.Failure)
  | notUtf8
  | home (e : Path.NoHome)
  | noSettingsFile
  | store (e : Store.Failure)
deriving DecidableEq

def LaunchFailure.message : LaunchFailure → String
  | .file e => e.message
  | .notUtf8 => "not UTF-8"
  | .home e => e.message
  | .noSettingsFile => "expected str, bytes or os.PathLike object, not list"
  | .store e => e.message

/-- A text file's content, with each line end read as a newline. -/
def readTextFile (d : Disk) (p : Path) : Except LaunchFailure Text :=
  match d.read p with
  | .error e => .error (.file e)
  | .ok bytes => match String.fromUTF8? bytes with
    | some s => .ok (Text.normalizeNewlines s.toList)
    | none => .error .notUtf8

def settingsFile (env : Environment) (a : Arguments) : Except LaunchFailure Path :=
  match a.settings with
  | some (.file p) => .ok p
  | some .separator => .error .noSettingsFile
  | none => env.settingsPath.mapError .home

def launch (d : Disk) (depth : Nat) (env : Environment) (a : Arguments) :
    Except LaunchFailure Screen := do
  let text ← match a.path.filter (· ≠ "") with
    | some p => readTextFile d (Path.parse p)
    | none => .ok []
  let path ← settingsFile env a
  (Screen.start { store := { path }, disk := d } depth text a.enabled).mapError .store

end ModalEditing
