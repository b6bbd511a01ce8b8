import ModalEditing.Text.Blank

namespace ModalEditing.Text

def copies (n : Nat) (t : Text) : Text := (List.replicate n t).flatten

/-- Their number or their length exceeds a signed word of 64 bits, or there is no room for them. -/
inductive CopyError
  | tooMany
  | tooLong
  | noRoom
deriving DecidableEq

def CopyError.message : CopyError → String
  | .tooMany => "cannot fit 'int' into an index-sized integer"
  | .tooLong => "repeated string is too long"
  | .noRoom => ""

def wordLimit : Nat := Nat.pow 2 63

/-- What is wrong with so many copies of a text, where there is room for so many characters or no bound
on them. One is always possible. -/
def copyError? (room : Option Nat) (n : Nat) (t : Text) : Option CopyError :=
  if n ≤ 1 then none
  else if wordLimit ≤ n then some .tooMany
  else if wordLimit ≤ n * t.length then some .tooLong
  else if room.any (· < n * t.length) then some .noRoom
  else none

end ModalEditing.Text
