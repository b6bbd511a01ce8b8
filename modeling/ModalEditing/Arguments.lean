import ModalEditing.Number.Whole
import ModalEditing.Path

namespace ModalEditing

/-- What the option for a settings file was given: a file, or a separator, which names none. -/
inductive SettingsChoice
  | file (p : Path)
  | separator
deriving DecidableEq

namespace SettingsChoice

def ofValue (v : String) : SettingsChoice := if v = "--" then .separator else .file (Path.parse v)

def path? : SettingsChoice → Option Path
  | .file p => some p
  | .separator => none

end SettingsChoice

structure Arguments where
  path : Option String := none
  settings : Option SettingsChoice := none
  enabled : Option Bool := none
deriving DecidableEq

namespace Arguments

def program : String := "vim-interpreter-demo"

inductive Flag
  | help
  | settings
  | vim
  | noVim
deriving DecidableEq

/-- The spellings of the options, in the order in which help lists them. -/
def spellings : List (String × Flag) :=
  [("-h", .help), ("--help", .help), ("--settings", .settings), ("--vim", .vim), ("--no-vim", .noVim)]

def Flag.title (f : Flag) : String :=
  "/".intercalate ((spellings.filter (·.2 = f)).map (·.1))

inductive Error
  | ambiguous (word : String) (spellings : List String)
  | valueMissing (f : Flag)
  | valueIgnored (f : Flag) (value : String)
  | clash (f other : Flag)
  | unrecognized (words : List String)
deriving DecidableEq

def Error.message : Error → String
  | .ambiguous w ss => "ambiguous option: " ++ w ++ " could match " ++ ", ".intercalate ss
  | .valueMissing f => "argument " ++ f.title ++ ": expected one argument"
  | .valueIgnored f v => "argument " ++ f.title ++ ": ignored explicit argument " ++ Text.quote v
  | .clash f other => "argument " ++ f.title ++ ": not allowed with argument " ++ other.title
  | .unrecognized ws => "unrecognized arguments: " ++ " ".intercalate ws

inductive Stop
  | help
  | error (e : Error)
deriving DecidableEq

/-- What a word is. The value of an option stands after an equals sign, or right after a letter. -/
inductive Word
  | plain
  | separator
  | option (f : Flag) (short : Bool) (value : Option String)
  | unknown
deriving DecidableEq

def splitEquals (t : Text) : Text × Option Text :=
  match t.dropWhile (· ≠ '=') with
  | [] => (t, none)
  | _ :: v => (t.takeWhile (· ≠ '='), some v)

def isDecimal (t : Text) : Bool := t.all fun c => (Number.digitValue? c).isSome

/-- A minus sign and digits, with a point before some of them or with none; a newline may follow. -/
def isNegativeNumber : Text → Bool
  | '-' :: t =>
    let body := if t.getLast? = some '\n' then t.dropLast else t
    let whole := body.takeWhile (· ≠ '.')
    match body.dropWhile (· ≠ '.') with
    | [] => !whole.isEmpty && isDecimal whole
    | _ :: decimals => isDecimal whole && !decimals.isEmpty && isDecimal decimals
  | _ => false

def matching (word : String) : List (String × Flag × Option String) :=
  match word.toList with
  | '-' :: '-' :: _ =>
    let (start, value) := splitEquals word.toList
    (spellings.filter fun s => start.isPrefixOf s.1.toList).map fun s =>
      (s.1, s.2, value.map String.ofList)
  | c :: d :: rest =>
    (spellings.filter fun s => s.1.toList = [c, d]).map fun s =>
      (s.1, s.2, some (String.ofList rest))
  | _ => []

def classify (word : String) : Except Error Word :=
  let t := word.toList
  if t.head? ≠ some '-' then .ok .plain
  else match spellings.lookup word with
    | some f => .ok (.option f (t.length = 2) none)
    | none =>
      if t.length = 1 then .ok .plain
      else
        let (start, value) := splitEquals t
        match value, spellings.lookup (String.ofList start) with
        | some v, some f => .ok (.option f (start.length = 2) (some (String.ofList v)))
        | _, _ =>
          match matching word with
          | [(s, f, value)] => .ok (.option f (s.length = 2) value)
          | [] => .ok (if isNegativeNumber t || t.contains ' ' then .plain else .unknown)
          | many => .error (.ambiguous word (many.map (·.1)))

/-- All words with what they are; after a separator all are plain. -/
def classifyAll : List String → Except Error (List (String × Word))
  | [] => .ok []
  | "--" :: rest => .ok (("--", .separator) :: rest.map (·, .plain))
  | w :: rest => do
    let k ← classify w
    return (w, k) :: (← classifyAll rest)

structure Progress where
  found : Arguments := {}
  hasPath : Bool := false
  seen : List Flag := []
  extras : List String := []

def Progress.extra (p : Progress) (ws : List String) : Progress := { p with extras := p.extras ++ ws }

def Progress.switch (p : Progress) (f other : Flag) (enabled : Bool) : Except Stop Progress :=
  if p.seen.contains other then .error (.error (.clash f other))
  else .ok { p with seen := f :: p.seen, found.enabled := some enabled }

/-- What the value of the option for help makes of it: letters of further options, and no option but
this one has a letter. -/
def runLetters : Text → Stop
  | [] => .help
  | 'h' :: t => runLetters t
  | v => .error (.valueIgnored .help (String.ofList v))

def Progress.option (p : Progress) (f : Flag) (short : Bool) (value : Option String) :
    Except Stop Progress :=
  match f, value with
  | .settings, some v => .ok { p with found.settings := some (.ofValue v) }
  | .settings, none => .error (.error (.valueMissing .settings))
  | .help, none => .error .help
  | .vim, none => p.switch .vim .noVim true
  | .noVim, none => p.switch .noVim .vim false
  | f, some v =>
    if short && v ≠ "" then .error (runLetters v.toList) else .error (.error (.valueIgnored f v))

def Progress.finish (p : Progress) (words : List (String × Word)) : Progress :=
  if p.hasPath then p.extra (words.map (·.1))
  else match words with
    | [] => p
    | (_, .separator) :: [] => p
    | (_, .separator) :: (w, _) :: rest => Progress.extra { p with found.path := some w } (rest.map (·.1))
    | (w, _) :: (_, .separator) :: rest => Progress.extra { p with found.path := some w } (rest.map (·.1))
    | (w, _) :: rest => Progress.extra { p with found.path := some w } (rest.map (·.1))

def Word.isOption : Word → Bool
  | .option .. | .unknown => true
  | .plain | .separator => false

def readWords (p : Progress) : List (String × Word) → Except Stop Progress
  | [] => .ok p
  | (w, k) :: rest =>
    if !(k.isOption || rest.any (·.2.isOption)) then .ok (p.finish ((w, k) :: rest))
    else match k with
      | .unknown => readWords (p.extra [w]) rest
      | .option .settings _ none =>
        match rest with
        | (v, .plain) :: rest => readWords { p with found.settings := some (.ofValue v) } rest
        | _ => .error (.error (.valueMissing .settings))
      | .option f short value => do readWords (← p.option f short value) rest
      | .plain | .separator =>
        if p.hasPath then readWords (p.extra [w]) rest
        else readWords { p with hasPath := true, found.path := some w } rest

def parse (words : List String) : Except Stop Arguments := do
  let classified ← (classifyAll words).mapError .error
  let p ← readWords {} classified
  if p.extras.isEmpty then return p.found
  else .error (.error (.unrecognized p.extras))

def usage : String := "usage: " ++ program ++ " [-h] [--settings SETTINGS] [--vim | --no-vim] [path]"

def Error.line (e : Error) : String := program ++ ": error: " ++ e.message

end Arguments
end ModalEditing
