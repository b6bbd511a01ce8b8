import ModalEditing.Text.Lines

namespace ModalEditing

/-- A path in normal form, without repeated slashes and single dots. `root` is empty for a relative one, and
two slashes where a path starts with just two. The parts are texts of characters: paths with half of a
surrogate pair in them, on which writing fails with an encoding error, are left out. -/
structure Path where
  root : String := ""
  parts : List String := []
deriving DecidableEq, Inhabited

namespace Path

def parse (s : String) : Path :=
  let t := s.toList
  let root := match (t.takeWhile (· = '/')).length with
    | 0 => ""
    | 2 => "//"
    | _ => "/"
  ⟨root, ((Text.pieces '/' t).map String.ofList).filter fun p => p ≠ "" && p ≠ "."⟩

protected def toString (p : Path) : String :=
  if p.root = "" && p.parts.isEmpty then "." else p.root ++ "/".intercalate p.parts

def parent (p : Path) : Path := { p with parts := p.parts.dropLast }

def join (p : Path) (parts : List String) : Path := { p with parts := p.parts ++ parts }

inductive NoHome
  | undetermined
deriving DecidableEq

def NoHome.message : NoHome → String
  | .undetermined => "Could not determine home directory."

/-- A home directory as it stands in a path: without slashes at its end, and never empty. -/
def homeText (home : String) : String :=
  let t := (home.toList.reverse.dropWhile (· = '/')).reverse
  if t.isEmpty then "/" else String.ofList t

/-- A tilde as the first part stands for the home directory. Nobody else's is known. -/
def expandUser (home : String) (p : Path) : Except NoHome Path :=
  match p.root, p.parts with
  | "", first :: rest =>
    if first.toList.head? = some '~' then
      let text := homeText home
      if first ≠ "~" || text.toList.head? = some '~' then .error .undetermined
      else .ok ((parse text).join rest)
    else .ok p
  | _, _ => .ok p

end Path
end ModalEditing
