import ModalEditing.Assoc
import ModalEditing.Path

namespace ModalEditing

/-- Files are compared byte by byte. -/
instance DiskEntry.decidableEqBytes : DecidableEq ByteArray := ByteArray.decEq

inductive DiskEntry
  | file (bytes : ByteArray)
  | dir
deriving DecidableEq

/-- Places are lists of names from the root. Relative paths start at `home`. A sealed disk can be read
and not changed. -/
structure Disk where
  home : List String := []
  entries : List (List String × DiskEntry) := []
  isSealed : Bool := false

namespace Disk

inductive Failure
  | notFound
  | isDirectory
  | notDirectory
  | exists
  | nameTooLong
  | isSealed
  | nullCharacter
deriving DecidableEq

def Failure.message : Failure → String
  | .notFound => "no such file or directory"
  | .isDirectory => "is a directory"
  | .notDirectory => "not a directory"
  | .exists => "file exists"
  | .nameTooLong => "file name too long"
  | .isSealed => "read-only file system"
  | .nullCharacter => "embedded null byte"

def entry? (d : Disk) (place : List String) : Option DiskEntry :=
  if place.isEmpty then some .dir else Assoc.get? place d.entries

/-- The most bytes in a name, and one more than the most in a path. -/
def nameLimit : Nat := 255

def pathLimit : Nat := 4096

/-- The place that parts lead to from another. All but the last must be directories. -/
def walk (d : Disk) (place : List String) : List String → Except Failure (List String)
  | [] => .ok place
  | part :: rest =>
    match d.entry? place with
    | none => .error .notFound
    | some (.file _) => .error .notDirectory
    | some .dir =>
      if nameLimit < part.utf8ByteSize then .error .nameTooLong
      else d.walk (if part = ".." then place.dropLast else place ++ [part]) rest

def locate (d : Disk) (p : Path) : Except Failure (List String) :=
  if p.toString.toList.contains '\x00' then .error .nullCharacter
  else if pathLimit ≤ p.toString.utf8ByteSize then .error .nameTooLong
  else d.walk (if p.root = "" then d.home else []) p.parts

def read (d : Disk) (p : Path) : Except Failure ByteArray :=
  match d.locate p with
  | .error e => .error e
  | .ok place => match d.entry? place with
    | none => .error .notFound
    | some .dir => .error .isDirectory
    | some (.file bytes) => .ok bytes

def isDir (d : Disk) (p : Path) : Bool :=
  match d.locate p with
  | .error _ => false
  | .ok place => d.entry? place = some .dir

def write (d : Disk) (p : Path) (bytes : ByteArray) : Except Failure Disk :=
  match d.locate p with
  | .error e => .error e
  | .ok place =>
    if d.entry? place = some .dir then .error .isDirectory
    else if d.isSealed then .error .isSealed
    else .ok { d with entries := Assoc.put place (.file bytes) d.entries }

def makeDir (d : Disk) (p : Path) : Except Failure Disk :=
  match d.locate p with
  | .error e => .error e
  | .ok place =>
    if (d.entry? place).isSome then .error .exists
    else if d.isSealed then .error .isSealed
    else .ok { d with entries := Assoc.put place .dir d.entries }

def ensureDir (d : Disk) (p : Path) : Disk × Option Failure :=
  match d.makeDir p with
  | .ok d => (d, none)
  | .error .nullCharacter => (d, some .nullCharacter)
  | .error e => (d, if e ≠ .notFound && d.isDir p then none else some e)

/-- Makes the directory of a path with all those it lies in; `up` holds its parts from the last one on. -/
def makeDirs (d : Disk) (root : String) : (up : List String) → Disk × Option Failure
  | [] => d.ensureDir ⟨root, []⟩
  | part :: up =>
    let p : Path := ⟨root, (part :: up).reverse⟩
    match d.ensureDir p with
    | (d, some .notFound) =>
      match d.makeDirs root up with
      | (d, some e) => (d, some e)
      | (d, none) => d.ensureDir p
    | r => r

end Disk
end ModalEditing
