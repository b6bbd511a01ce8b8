import ModalEditing.Text.Blank
import ModalEditing.Text.Printable

namespace ModalEditing.Text

def hexDigit (n : Nat) : Char :=
  Char.ofNat (if n < 10 then 0x30 + n else 0x61 + (n - 10))

def hex : (width : Nat) → Nat → Text
  | 0, _ => []
  | w + 1, n => hex w (n / 16) ++ [hexDigit (n % 16)]

/-- Single quotes, unless the text holds one and no double quote. -/
def quoteMark (codes : List Nat) : Char :=
  if codes.contains '\''.toNat && !codes.contains '"'.toNat then '"' else '\''

def escapeCode (mark : Char) (n : Nat) : Text :=
  if n = mark.toNat then ['\\', mark]
  else if n = '\\'.toNat then ['\\', '\\']
  else if n = 9 then ['\\', 't']
  else if n = 10 then ['\\', 'n']
  else if n = 13 then ['\\', 'r']
  else if isPrintableCode n then [Char.ofNat n]
  else if n < 0x100 then '\\' :: 'x' :: hex 2 n
  else if n < 0x10000 then '\\' :: 'u' :: hex 4 n
  else '\\' :: 'U' :: hex 8 n

def quoteCodes (codes : List Nat) : Text :=
  let mark := quoteMark codes
  mark :: codes.flatMap (escapeCode mark) ++ [mark]

def quote (s : String) : String := String.ofList (quoteCodes (s.toList.map Char.toNat))

def quoteList (ss : List String) : String := "[" ++ ", ".intercalate (ss.map quote) ++ "]"

end ModalEditing.Text
