import ModalEditing.Disk
import ModalEditing.Journal.Report
import ModalEditing.Json.Printer
import ModalEditing.Json.Reader

namespace ModalEditing

/-- The object is none until it is first wanted. What cannot be read counts as empty, and what cannot be saved
is kept in memory; both are only warned of. -/
structure Store where
  path : Path
  data : Option (List (Json.Str × Json)) := none

namespace Store

abbrev Fields := List (Json.Str × Json)

inductive Warning
  | loadFailed (path : Path) (why : String)
  | saveFailed (path : Path) (why : String)
deriving DecidableEq

def Warning.report : Warning → Report
  | .loadFailed p why =>
    .event "settings.load_failed" "warning" none
      [("path", .string p.toString), ("error", .string why)]
  | .saveFailed p why =>
    .event "settings.save_failed" "warning" none
      [("path", .string p.toString), ("error", .string why)]

/-- What is refused rather than reported: a file with collections nested too deep, an object that
cannot be written, a path with a null character. -/
inductive Failure
  | tooDeep (c : Json.Collection)
  | unwritable (e : Json.WriteError)
  | nullCharacter
deriving DecidableEq

def Failure.message : Failure → String
  | .tooDeep c => Json.ReadError.message (.tooDeep c)
  | .unwritable e => e.message
  | .nullCharacter => Disk.Failure.message .nullCharacter

structure Shelf where
  store : Store
  disk : Disk
  warnings : List Warning := []

inductive Unreadable
  | notUtf8
  | notJson (e : Json.ReadError)
deriving DecidableEq

def Unreadable.message : Unreadable → String
  | .notUtf8 => "not UTF-8"
  | .notJson e => e.message

/-- How deep arrays and objects may be nested in a file that a call reads, and in an object that it
writes. What is left of the stack decides that, so it may differ from call to call. -/
structure Depths where
  reading : Nat
  writing : Nat

/-- The object that a file holds; any other value counts as empty. -/
def parse (depth : Nat) (bytes : ByteArray) : Except Unreadable Fields :=
  match String.fromUTF8? bytes with
  | none => .error .notUtf8
  | some s => match Json.read (.within depth) s.toList with
    | .error e => .error (.notJson e)
    | .ok (.obj fields) => .ok fields
    | .ok _ => .ok []

namespace Shelf

def warn (s : Shelf) (w : Warning) : Shelf := { s with warnings := s.warnings ++ [w] }

def keep (s : Shelf) (fields : Fields) : Shelf := { s with store.data := some fields }

/-- Reads the file anew. A missing file is not worth a warning. -/
def load (s : Shelf) (depth : Nat) : Except Failure Shelf :=
  let path := s.store.path
  match s.disk.read path with
  | .error .notFound => .ok (s.keep [])
  | .error e => .ok ((s.warn (.loadFailed path e.message)).keep [])
  | .ok bytes => match parse depth bytes with
    | .ok fields => .ok (s.keep fields)
    | .error (.notJson (.tooDeep c)) => .error (.tooDeep c)
    | .error e => .ok ((s.warn (.loadFailed path e.message)).keep [])

def ensure (s : Shelf) (depth : Nat) : Except Failure Shelf :=
  if s.store.data.isSome then .ok s else s.load depth

def fields (s : Shelf) : Fields := s.store.data.getD []

def get (s : Shelf) (depth : Nat) (key : String) (default : Json := .null) :
    Except Failure (Shelf × Json) :=
  (s.ensure depth).map fun s => (s, (Assoc.get? (Json.Str.ofString key) s.fields).getD default)

def content (depth : Nat) (fields : Fields) : Except Json.WriteError ByteArray :=
  (Json.writeWithin depth .block (.obj fields)).map fun t => (String.ofList (t ++ ['\n'])).toUTF8

/-- Makes the file's directory and writes the object to the file. A failure of the disk is reported;
the answer is whether all went well. -/
def writeOut (s : Shelf) (depth : Nat) : Shelf × Except Failure Bool :=
  let path := s.store.path
  let fail (s : Shelf) (e : Disk.Failure) : Shelf × Except Failure Bool :=
    if e = .nullCharacter then (s, .error .nullCharacter)
    else (s.warn (.saveFailed path e.message), .ok false)
  match s.disk.makeDirs path.parent.root path.parent.parts.reverse with
  | (disk, some e) => fail { s with disk := disk } e
  | (disk, none) =>
    let s := { s with disk := disk }
    match content depth s.fields with
    | .error e => (s, .error (.unwritable e))
    | .ok bytes => match disk.write path bytes with
      | .error e => fail s e
      | .ok disk => ({ s with disk := disk }, .ok true)

def save (s : Shelf) (ds : Depths) : Shelf × Except Failure Bool :=
  match s.ensure ds.reading with
  | .error e => (s, .error e)
  | .ok s => s.writeOut ds.writing

/-- Sets a key and saves. The key stays set even where the save fails. -/
def set (s : Shelf) (ds : Depths) (key : String) (value : Json) : Shelf × Except Failure Bool :=
  match s.ensure ds.reading with
  | .error e => (s, .error e)
  | .ok s => (s.keep (Assoc.put (Json.Str.ofString key) value s.fields)).writeOut ds.writing

def enabledKey : String := "vim_enabled"

def loadEnabled (s : Shelf) (depth : Nat) : Except Failure (Shelf × Bool) :=
  (s.get depth enabledKey (.bool false)).map fun
    | (s, .bool b) => (s, b)
    | (s, _) => (s, false)

end Shelf
end Store
end ModalEditing
