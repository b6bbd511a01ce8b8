import Mathlib.Tactic.IntervalCases
import ModalEditing.Proofs.Interpreter.Session
import ModalEditing.Proofs.Number.Digits

namespace ModalEditing

theorem isDigitToken_iff (token : String) :
    isDigitToken token = true ↔ ∃ c : Char, c.isDigit = true ∧ token = String.singleton c := by
  constructor
  · intro h
    simp only [isDigitToken, List.contains_iff_mem, List.mem_cons, List.not_mem_nil, or_false] at h
    rcases h with rfl | rfl | rfl | rfl | rfl | rfl | rfl | rfl | rfl | rfl
    exacts [⟨'0', rfl, rfl⟩, ⟨'1', rfl, rfl⟩, ⟨'2', rfl, rfl⟩, ⟨'3', rfl, rfl⟩, ⟨'4', rfl, rfl⟩,
      ⟨'5', rfl, rfl⟩, ⟨'6', rfl, rfl⟩, ⟨'7', rfl, rfl⟩, ⟨'8', rfl, rfl⟩, ⟨'9', rfl, rfl⟩]
  · rintro ⟨c, hc, rfl⟩
    obtain ⟨hlo, hhi⟩ := (Number.isDigit_iff c).mp hc
    rw [← Char.ofNat_toNat c]
    interval_cases c.toNat <;> decide

namespace State
variable {s : State} {t : Keymap} {k : Key}

theorem countsDigit_iff (s : State) (g : Group) (token : String) :
    s.countsDigit g token = true ↔
      g = .normal ∧ isDigitToken token = true ∧ (token ≠ "0" ∨ s.digits ≠ "") := by
  simp [countsDigit, and_assoc]

/-- A count in normal mode alone, a leader outside insert mode, nothing while disabled. -/
structure Consistent (s : State) : Prop where
  count : Number.IsCount s.digits.toList
  normal_of_digits : s.digits ≠ "" → s.mode = .normal
  not_insert_of_leader : s.leader ≠ "" → s.mode ≠ .insert
  idle_of_disabled : s.enabled = false → s.Idle

theorem Idle.consistent (h : s.Idle) : s.Consistent where
  count := by simp [h.1, Number.IsCount]
  normal_of_digits hd := absurd h.1 hd
  not_insert_of_leader hl := absurd h.2 hl
  idle_of_disabled _ := h

/-- The digits and the leader fit the mode, whether or not the interpreter is on. -/
def Fits (s : State) : Prop := ({ s with enabled := true } : State).Consistent

theorem Consistent.fits (h : s.Consistent) : s.Fits :=
  ⟨h.count, h.normal_of_digits, h.not_insert_of_leader, fun hf => by cases hf⟩

theorem Fits.consistent (h : s.Fits) (he : s.enabled = true) : s.Consistent :=
  ⟨h.count, h.normal_of_digits, h.not_insert_of_leader, fun hf => by simp [he] at hf⟩

/-- What is pending and the mode decide it. -/
theorem Fits.of_eq {s' : State} (h : s.Fits) (hdigits : s'.digits = s.digits) (hleader : s'.leader = s.leader)
    (hmode : s'.mode = s.mode) : s'.Fits := by
  obtain ⟨hcount, hnormal, hinsert, -⟩ := h
  dsimp only at hcount hnormal hinsert
  rw [← hdigits] at hcount hnormal
  rw [← hmode] at hnormal hinsert
  rw [← hleader] at hinsert
  exact ⟨hcount, hnormal, hinsert, fun hf => by cases hf⟩

theorem Consistent.fresh (enabled : Bool) : ({ enabled := enabled } : State).Consistent :=
  Idle.consistent ⟨rfl, rfl⟩

theorem normal_of_group {m : Mode} (h : m.group? = some .normal) : m = .normal := by
  cases m <;> simp_all [Mode.group?]

theorem Consistent.typeDigit (h : s.Consistent) (he : s.enabled = true) {g : Group} {token : String}
    (hm : s.mode.group? = some g) (hd : s.countsDigit g token = true) :
    ({ s with digits := s.digits ++ token } : State).Consistent := by
  obtain ⟨rfl, hdigit, hzero⟩ := (s.countsDigit_iff g token).mp hd
  obtain ⟨c, hc, rfl⟩ := (isDigitToken_iff token).mp hdigit
  have hmode := normal_of_group hm
  refine ⟨⟨?_, ?_⟩, fun _ => hmode, fun _ => by simp [hmode], fun hf => by simp [he] at hf⟩
  · intro x hx
    have hx : x ∈ s.digits.toList ∨ x = c := by simpa using hx
    rcases hx with hx | rfl
    · exact h.count.1 x hx
    · exact hc
  · -- A zero counts only after other digits, so it never comes first.
    by_cases hs : s.digits = ""
    · have hne : c ≠ '0' := by
        rintro rfl
        exact hzero.elim (fun hz => hz rfl) (fun hz => hz hs)
      simpa [hs] using hne
    · obtain ⟨d, rest, hrest⟩ := List.exists_cons_of_ne_nil
        (fun hn => hs (String.toList_eq_nil_iff.mp hn) : s.digits.toList ≠ [])
      simpa [hrest] using h.count.2

def countOf (s : State) (b : Binding) : ℕ :=
  if b.counted = true ∧ s.digits ≠ "" then Number.decimal s.digits.toList else 1

theorem Consistent.countOf_pos (h : s.Consistent) (b : Binding) : 0 < s.countOf b := by
  unfold countOf
  split
  · rename_i hc
    exact Number.decimal_pos h.count (fun hn => hc.2 (String.toList_eq_nil_iff.mp hn))
  · exact Nat.one_pos

/-- The count is the number of the digits typed, unless there are too many. -/
theorem Consistent.countFor_eq (h : s.Consistent) (b : Binding) :
    s.countFor b = if b.counted = true ∧ Number.digitLimit < s.digits.length
      then .error (.tooLong s.digits.length) else .ok (s.countOf b : ℤ) := by
  unfold countFor countOf number
  cases b.counted with
  | false => simp
  | true =>
    by_cases hd : s.digits = ""
    · simp [hd]
    · have hr := Number.read_digits
        (fun hn => hd (String.toList_eq_nil_iff.mp hn) : s.digits.toList ≠ []) h.count.1
      rw [String.ofList_toList, String.length_toList] at hr
      simp [hd, hr]

inductive Resolving (s : State) (b : Binding) : State × Except Fault Action → Prop
  | tooLong (hc : b.counted = true) (hl : Number.digitLimit < s.digits.length) :
    Resolving s b (s, .error (.badCount (.tooLong s.digits.length)))
  | lost (name : String) (e : UnknownName) (ht : b.target? = some name)
      (hm : Mode.parse name = .error e) : Resolving s b (s.resetPending, .error (.badMode e))
  | done (s' : State) (a : Action) (h : Performed s b (s.countOf b) s' a)
      (hc : b.counted = true → s.digits.length ≤ Number.digitLimit)
      (hm : ∀ name, b.target? = some name → ∃ m : Mode, m.name = name) :
    Resolving s b (s', .ok a)

theorem Consistent.resolving (h : s.Consistent) (b : Binding) : Resolving s b (s.resolve b) := by
  rw [resolve_eq, h.countFor_eq b]
  by_cases hl : b.counted = true ∧ Number.digitLimit < s.digits.length
  · rw [if_pos hl]
    exact .tooLong hl.1 hl.2
  · rw [if_neg hl]
    have hp := s.performing b (h.countOf_pos b)
    simp only
    generalize s.perform b (s.countOf b) = r at hp ⊢
    cases hp with
    | lost name e ht hm => exact .lost name e ht hm
    | done s' a hd hm => exact .done s' a hd (fun hc => Nat.le_of_not_lt fun hn => hl ⟨hc, hn⟩) hm

theorem Consistent.of_reading (h : s.Consistent) (he : s.enabled = true)
    {r : State × Except Fault Action} (hr : Reading s t k r) : r.1.Consistent := by
  cases hr with
  | quit hn hm => exact (s.idle_switch .normal).consistent
  | cancel hn hm => exact s.idle_resetPending.consistent
  | text hn hm => exact h
  | digit g hn hm hd => exact h.typeDigit he hm hd
  | leader g hn hm hs hl =>
    refine ⟨h.count, h.normal_of_digits, ?_, fun hf => by simp [he] at hf⟩
    rintro - hi
    have hi : s.mode = .insert := hi
    simp [hi, Mode.group?] at hm
  | unknown g hn hm hd hf => exact s.idle_resetPending.consistent
  | command g b hc hr =>
    cases hr ▸ h.resolving b with
    | tooLong hc hl => exact h
    | lost name e ht hm => exact s.idle_resetPending.consistent
    | done s' a hd hc hm => exact hd.idle.consistent

theorem Consistent.steered (h : s.Consistent) (c : Control) : (s.steered c).Consistent := by
  cases c with
  | setMode m => exact (s.idle_switch m).consistent
  | enable => exact (idle_switch _ .normal).consistent
  | disable => exact (idle_resetPending _).consistent
  | toggle =>
    simp only [State.steered]
    split
    · exact (idle_resetPending _).consistent
    · exact (idle_switch _ .normal).consistent
  | yank text => exact ⟨h.count, h.normal_of_digits, h.not_insert_of_leader, h.idle_of_disabled⟩
  | pattern p => exact ⟨h.count, h.normal_of_digits, h.not_insert_of_leader, h.idle_of_disabled⟩

/-- Without digits typed, as in the visual modes, whatever a key yields has the count one. -/
theorem Consistent.count_of_reading (h : s.Consistent) (hd : s.digits = "")
    {r : State × Except Fault Action} (hr : Reading s t k r) {a : Action} (ha : r.2 = .ok a) :
    a.count = 1 := by
  cases hr with
  | command g b hc hr =>
    cases hr ▸ h.resolving b with
    | tooLong hc hl => exact nomatch ha
    | lost name e ht hm => exact nomatch ha
    | done s' a' hp hc hm =>
      obtain rfl : a' = a := Except.ok.inj ha
      simp [hp.count, countOf, hd]
  | _ =>
    obtain rfl := Except.ok.inj ha
    rfl

end State

namespace Session
variable {s : Session}

theorem consistent_step (h : s.state.Consistent) (c : Call) : (s.step c).state.Consistent := by
  have hs := s.stepping c
  generalize (s.step c).state = s' at hs ⊢
  cases hs with
  | same => exact h
  | read k he => exact h.of_reading he (s.state.reading s.keymap k)
  | steered c => exact h.steered c

theorem consistent_run (h : s.state.Consistent) (cs : List Call) : (s.run cs).state.Consistent := by
  induction cs generalizing s with
  | nil => exact h
  | cons c cs ih => exact ih (consistent_step h c)

end Session
end ModalEditing
