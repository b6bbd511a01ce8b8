import ModalEditing.Proofs.TextArea.Motion
import ModalEditing.Proofs.TextArea.Stops

namespace ModalEditing.Motion
variable {ls : List Text} {l : Location}

theorem getElem?_eq_lineOf {row : ℕ} (h : row < ls.length) : ls[row]? = some (lineOf ls row) := by
  simp [lineOf, h]

def stepForward? (ls : List Text) (l : Location) : Option Location := do
  let line ← ls[l.row]?
  let col := l.col + run false (line.drop l.col)
  let col := col + run true (line.drop col)
  if line.length ≤ col && l.row + 1 < ls.length then
    let next ← ls[l.row + 1]?
    return ⟨l.row + 1, Text.indent next⟩
  else
    return ⟨l.row, col⟩

def stepBackward? (ls : List Text) (l : Location) : Option Location := do
  let l ← if l.col = 0 ∧ 0 < l.row then
      ls[l.row - 1]?.map fun above => ⟨l.row - 1, above.length⟩
    else some l
  let line ← ls[l.row]?
  let rest := ((line.take l.col).reverse.dropWhile Text.isBlank).dropWhile fun c => !Text.isBlank c
  return ⟨l.row, rest.length⟩

/-- Looks for a word from a column on, in this row and in those behind it, of which there are so many. -/
def seekWord? (ls : List Text) (row col : ℕ) : ℕ → Option Location
  | 0 => do
    let line ← ls[row]?
    let found := col + run true (line.drop col)
    return if found < line.length then ⟨row, found⟩ else ⟨row, line.length⟩
  | behind + 1 => do
    let line ← ls[row]?
    let found := col + run true (line.drop col)
    if found < line.length then return ⟨row, found⟩ else seekWord? ls (row + 1) 0 behind

def stepWordEnd? (ls : List Text) (l : Location) : Option Location := do
  let l ← seekWord? ls l.row (l.col + 1) (ls.length - (l.row + 1))
  let line ← ls[l.row]?
  return if line.length ≤ l.col then l else ⟨l.row, l.col + run false (line.drop (l.col + 1))⟩

def times? (step : Location → Option Location) : ℕ → Location → Option Location
  | 0, l => some l
  | n + 1, l => step l >>= times? step n

/-- Where a motion leads from a location, if all rows are there that have to be read to know it. -/
def target? (ls : List Text) (l : Location) (count : ℕ) : Motion → Option Location
  | .left => some ⟨l.row, l.col - count⟩
  | .right => ls[l.row]?.map fun line => ⟨l.row, min line.length (l.col + count)⟩
  | .down =>
    let row := min (ls.length - 1) (l.row + count)
    ls[row]?.map fun line => ⟨row, min l.col line.length⟩
  | .up =>
    let row := min (ls.length - 1) (l.row - count)
    ls[row]?.map fun line => ⟨row, min l.col line.length⟩
  | .wordForward => times? (stepForward? ls) count l
  | .wordBackward => times? (stepBackward? ls) count l
  | .wordEnd => do
    let e ← times? (stepWordEnd? ls) count l
    let line ← ls[e.row]?
    return ⟨e.row, min e.col (line.length - 1)⟩
  | .lineHome => some ⟨l.row, 0⟩
  | .lineEnd => ls[l.row]?.map fun line => ⟨l.row, line.length⟩
  | .textHome => ls[l.row]?.map fun line => ⟨l.row, Text.indent line⟩
  | .bufferHome => some ⟨0, 0⟩
  | .bufferEnd => some ⟨ls.length - 1, 0⟩

theorem stepForward?_eq (h : l.Within ls) : stepForward? ls l = some (stepForward ls l) := by
  simp only [stepForward?, stepForward, getElem?_eq_lineOf h.row, Option.bind_eq_bind,
    Option.bind_some, Option.pure_def]
  split
  · rename_i hnext
    have hrow : l.row + 1 < ls.length := by simp_all
    rw [getElem?_eq_lineOf hrow, Option.bind_some]
  · rfl

theorem stepBackward?_eq (h : l.Within ls) : stepBackward? ls l = some (stepBackward ls l) := by
  have hrow := h.row
  have habove : l.row - 1 < ls.length := by omega
  unfold stepBackward? stepBackward
  split
  · simp only [getElem?_eq_lineOf habove, Option.map_some, Option.bind_eq_bind,
      Option.bind_some, Option.pure_def]
  · simp only [getElem?_eq_lineOf hrow, Option.bind_eq_bind, Option.bind_some, Option.pure_def]

theorem seekWord?_eq {row col : ℕ} {later : List Text} (hrow : row < ls.length)
    (hlater : later = ls.drop (row + 1)) :
    seekWord? ls row col later.length = some (seekWord row col (lineOf ls row) later) := by
  induction later generalizing row col with
  | nil =>
    rw [List.length_nil, seekWord?, seekWord, getElem?_eq_lineOf hrow]
    rfl
  | cons next later ih =>
    obtain ⟨hnext, hline, hrest⟩ := drop_eq_cons hlater
    rw [List.length_cons, seekWord?, seekWord, getElem?_eq_lineOf hrow]
    simp only [Option.bind_eq_bind, Option.bind_some, Option.pure_def]
    split
    · rfl
    · rw [ih hnext hrest, hline]

theorem stepWordEnd?_eq (h : l.Within ls) : stepWordEnd? ls l = some (stepWordEnd ls l) := by
  have hseek : seekWord? ls l.row (l.col + 1) (ls.length - (l.row + 1))
      = some (seekWord l.row (l.col + 1) (lineOf ls l.row) (ls.drop (l.row + 1))) := by
    rw [← List.length_drop]
    exact seekWord?_eq h.row rfl
  have hfound : (seekWord l.row (l.col + 1) (lineOf ls l.row) (ls.drop (l.row + 1))).Within ls :=
    within_seekWord h.row rfl
  simp only [stepWordEnd?, stepWordEnd, hseek, Option.bind_eq_bind, Option.bind_some,
    getElem?_eq_lineOf hfound.row, Option.pure_def]

/-- Steps that each stay in the text and stop at no row take the same way as those that cannot stop. -/
theorem times?_eq {step? : Location → Option Location} {step : Location → Location}
    (hstep : ∀ l, l.Within ls → step? l = some (step l)) (hkeeps : ∀ l, l.Within ls → (step l).Within ls)
    (h : l.Within ls) (n : ℕ) : times? step? n l = some (iterate step n l) := by
  rw [iterate_eq]
  induction n generalizing l with
  | zero => rfl
  | succ n ih =>
    rw [times?, hstep l h, Function.iterate_succ_apply]
    exact ih (hkeeps l h)

/-- From a location in the text every motion finds the rows that it reads. -/
theorem target?_eq (m : Motion) (h : l.Within ls) (count : ℕ) :
    m.target? ls l count = some (m.target ls l count) := by
  have hpos : 0 < ls.length := Nat.lt_of_le_of_lt (Nat.zero_le _) h.row
  have hrow (row : ℕ) : min (ls.length - 1) row < ls.length := by omega
  cases m with
  | left => rfl
  | right => exact congrArg (Option.map _) (getElem?_eq_lineOf h.row)
  | down => exact congrArg (Option.map _) (getElem?_eq_lineOf (hrow _))
  | up => exact congrArg (Option.map _) (getElem?_eq_lineOf (hrow _))
  | wordForward => exact times?_eq (fun _ => stepForward?_eq) (fun _ => within_stepForward) h count
  | wordBackward =>
    exact times?_eq (fun _ => stepBackward?_eq) (fun _ => within_stepBackward) h count
  | wordEnd =>
    have hsteps := times?_eq (fun _ => stepWordEnd?_eq) (fun _ => within_stepWordEnd) h count
    have hend := iterate_induction (fun _ => within_stepWordEnd) count h
    rw [target?, hsteps, Option.bind_eq_bind, Option.bind_some, getElem?_eq_lineOf hend.row]
    rfl
  | lineHome => rfl
  | lineEnd => exact congrArg (Option.map _) (getElem?_eq_lineOf h.row)
  | textHome => exact congrArg (Option.map _) (getElem?_eq_lineOf h.row)
  | bufferHome => rfl
  | bufferEnd => rfl

end ModalEditing.Motion
