import ModalEditing.TextArea

namespace ModalEditing

inductive Motion
  | left
  | right
  | down
  | up
  | wordForward
  | wordBackward
  | wordEnd
  | lineHome
  | lineEnd
  | textHome
  | bufferHome
  | bufferEnd
deriving DecidableEq

namespace Motion

def names : List (String × Motion) :=
  [("left", .left), ("right", .right), ("down", .down), ("up", .up), ("word-forward", .wordForward),
   ("word-backward", .wordBackward), ("word-end", .wordEnd), ("line-home", .lineHome),
   ("line-end", .lineEnd), ("visual-line-home", .textHome), ("buffer-home", .bufferHome),
   ("buffer-end", .bufferEnd)]

/-- A name without the word `move-`, wherever it stands. -/
def dropMove : Text → Text
  | 'm' :: 'o' :: 'v' :: 'e' :: '-' :: t => dropMove t
  | c :: t => c :: dropMove t
  | [] => []

def dropSelect? : Text → Option Text
  | 's' :: 'e' :: 'l' :: 'e' :: 'c' :: 't' :: '-' :: t => some t
  | _ => none

def read (name : String) : Bool × Option Motion :=
  let t := name.toList
  let base := (dropSelect? t).getD t
  ((dropSelect? t).isSome, names.lookup (String.ofList (dropMove base)))

/-- Applies a function `n` times, or until it changes nothing. -/
def iterate {α : Type} [DecidableEq α] (f : α → α) : Nat → α → α
  | 0, a => a
  | n + 1, a => if f a = a then a else iterate f n (f a)

def lineOf (ls : List Text) (row : Nat) : Text := ls.getD row []

/-- The number of characters at the start of a text that are blank, or that are not. -/
def run (blank : Bool) (t : Text) : Nat := (t.takeWhile fun c => Text.isBlank c = blank).length

/-- Past the rest of the word and the blanks after it; from the end of a line to the first word of the
next. -/
def stepForward (ls : List Text) (l : Location) : Location :=
  let line := lineOf ls l.row
  let col := l.col + run false (line.drop l.col)
  let col := col + run true (line.drop col)
  if line.length ≤ col && l.row + 1 < ls.length then
    ⟨l.row + 1, Text.indent (lineOf ls (l.row + 1))⟩
  else ⟨l.row, col⟩

/-- Back past blanks to the start of a word; from the start of a line to the one before. -/
def stepBackward (ls : List Text) (l : Location) : Location :=
  let l := if l.col = 0 ∧ 0 < l.row then ⟨l.row - 1, (lineOf ls (l.row - 1)).length⟩ else l
  let earlier := ((lineOf ls l.row).take l.col).reverse
  let rest := (earlier.dropWhile Text.isBlank).dropWhile fun c => !Text.isBlank c
  ⟨l.row, rest.length⟩

/-- The first character from a column on that is not blank, in this line or a later one; in the last
line its end. -/
def seekWord (row col : Nat) (line : Text) (later : List Text) : Location :=
  let found := col + run true (line.drop col)
  if found < line.length then ⟨row, found⟩
  else match later with
    | [] => ⟨row, line.length⟩
    | next :: later => seekWord (row + 1) 0 next later

/-- To the last character of the next word; past the last one to the end of the text. -/
def stepWordEnd (ls : List Text) (l : Location) : Location :=
  let l := seekWord l.row (l.col + 1) (lineOf ls l.row) (ls.drop (l.row + 1))
  let line := lineOf ls l.row
  if line.length ≤ l.col then l else ⟨l.row, l.col + run false (line.drop (l.col + 1))⟩

def target (ls : List Text) (l : Location) (count : Nat) : Motion → Location
  | .left => ⟨l.row, l.col - count⟩
  | .right => ⟨l.row, min (lineOf ls l.row).length (l.col + count)⟩
  | .down =>
    let row := min (ls.length - 1) (l.row + count)
    ⟨row, min l.col (lineOf ls row).length⟩
  | .up =>
    let row := min (ls.length - 1) (l.row - count)
    ⟨row, min l.col (lineOf ls row).length⟩
  | .wordForward => iterate (stepForward ls) count l
  | .wordBackward => iterate (stepBackward ls) count l
  | .wordEnd =>
    let e := iterate (stepWordEnd ls) count l
    ⟨e.row, min e.col ((lineOf ls e.row).length - 1)⟩
  | .lineHome => ⟨l.row, 0⟩
  | .lineEnd => ⟨l.row, (lineOf ls l.row).length⟩
  | .textHome => ⟨l.row, Text.indent (lineOf ls l.row)⟩
  | .bufferHome => ⟨0, 0⟩
  | .bufferEnd => ⟨ls.length - 1, 0⟩

end Motion
end ModalEditing
