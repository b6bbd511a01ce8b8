import ModalEditing.Proofs.Interpreter.Trace

namespace ModalEditing

namespace Action

def motion? (a : Action) : Option String := if a.kind = .motion then a.name else none

def direction? (a : Action) : Option Direction :=
  if a.kind = .search then a.name.bind Direction.ofSearch? else none

end Action

namespace State
variable {s s' : State} {t : Keymap} {k : Key} {b : Binding} {a : Action} {n : ℕ}

/-- What is kept of a state, beside whether it is on, its mode and what is pending, by a key that
yields this action or fails. -/
structure Keeps (s s' : State) (a? : Option Action) : Prop where
  lastMotion : s'.lastMotion = (a?.bind Action.motion?).or s.lastMotion
  registers : s'.registers = s.registers
  search : s'.search = match a?.bind Action.direction? with
    | some d => { s.search with direction := d, pattern := "" }
    | none => s.search

theorem Performed.motion? (h : Performed s b n s' a) :
    a.motion? = if b.kind = .motion then some b.action else none := by
  have hk : a.kind = .motion ↔ b.kind = .motion := by
    rw [h.kind]
    cases b.kind <;> simp [BindingKind.actionKind]
  simp only [Action.motion?, hk, h.name]

theorem Performed.direction? (h : Performed s b n s' a) : a.direction? = b.direction? := by
  have hk : a.kind = .search ↔ b.kind = .search := by
    rw [h.kind]
    cases b.kind <;> simp [BindingKind.actionKind]
  simp only [Action.direction?, Binding.direction?, hk, h.name, Option.bind_some]

theorem Performed.keeps (h : Performed s b n s' a) : Keeps s s' (some a) := by
  refine ⟨?_, h.registers, ?_⟩
  · rw [h.lastMotion, Option.bind_some, h.motion?]
    split <;> rfl
  · rw [Option.bind_some, h.direction?]
    refine h.search.trans ?_
    cases b.direction? <;> rfl

theorem Consistent.keeps_of_reading (h : s.Consistent) {r : State × Except Fault Action}
    (hr : Reading s t k r) : Keeps s r.1 r.2.toOption := by
  cases hr with
  | command g b hb hr =>
    cases hr ▸ h.resolving b with
    | tooLong hc hl => constructor <;> rfl
    | lost name e ht hm => constructor <;> rfl
    | done s' a hp hc hm => exact hp.keeps
  | _ => constructor <;> rfl

theorem Consistent.keeps (h : s.Consistent) (t : Keymap) (k : Key) :
    Keeps s (s.handle t k).1.state (s.handle t k).2.toOption := by
  cases he : s.enabled with
  | false =>
    rw [handle_of_disabled he]
    constructor <;> rfl
  | true =>
    rw [(handle_of_enabled he t k).1, (handle_of_enabled he t k).2]
    exact h.keeps_of_reading (s.reading t k)

/-- A search that does not begin anew is for the last pattern. -/
theorem Consistent.pattern_of_reading (h : s.Consistent) {r : State × Except Fault Action}
    (hr : Reading s t k r) (ha : r.2 = .ok a) (hk : a.kind = .search) (hd : a.direction? = none) :
    a.pattern = s.search.last := by
  cases hr with
  | command g b hb hr =>
    cases hr ▸ h.resolving b with
    | tooLong hc hl => cases ha
    | lost name e ht hm => cases ha
    | done s' a' hp hc hm =>
      obtain rfl : a' = a := Except.ok.inj ha
      have hb : b.kind = .search := by
        rw [hp.kind] at hk
        cases hkind : b.kind <;> simp_all [BindingKind.actionKind]
      rw [hp.pattern, if_pos ⟨hb, hp.direction?.symm.trans hd⟩]
  | _ =>
    obtain rfl := Except.ok.inj ha
    exact absurd hk (by decide)

theorem Consistent.pattern_of_repeated (h : s.Consistent) (ha : (s.handle t k).2 = .ok a)
    (hk : a.kind = .search) (hd : a.direction? = none) : a.pattern = s.search.last := by
  cases he : s.enabled with
  | false =>
    rw [handle_of_disabled he] at ha
    obtain rfl := Except.ok.inj ha
    exact nomatch hk
  | true =>
    rw [(handle_of_enabled he t k).2] at ha
    exact h.pattern_of_reading (s.reading t k) ha hk hd

end State

namespace Session
variable {s : Session}

/-- A call, and the action it yielded if it yielded one. -/
structure Record where
  call : Call
  action? : Option Action

namespace Record

def motion? (r : Record) : Option String := r.action?.bind Action.motion?

def direction? (r : Record) : Option Direction := r.action?.bind Action.direction?

/-- The pattern that a host has collected, if it is not empty. -/
def sought? (r : Record) : Option String :=
  match r.call with
  | .control (.pattern p) => if p = "" then none else some p
  | _ => none

/-- The pattern being entered: the one that a host has collected, none where a search begins. -/
def entered? (r : Record) : Option String :=
  match r.call with
  | .control (.pattern p) => some p
  | _ => r.direction?.map fun _ => ""

def yanked? (r : Record) : Option Text :=
  match r.call with
  | .control (.yank text) => some text
  | _ => none

end Record

/-- The action that a call yields; control calls and failed ones yield none. -/
def yielded (s : Session) : Call → Option Action
  | .key k => (s.state.handle s.keymap k).2.toOption
  | .control _ | .modeNamed _ | .edit _ => none

def history (s : Session) (cs : List Call) : List Record :=
  s.gather (fun s c => [⟨c, s.yielded c⟩]) cs

/-- What a call and its action make of all that a state remembers. -/
structure Remembers (s s' : State) (r : Record) : Prop where
  lastMotion : r.motion?.or s.lastMotion = s'.lastMotion
  direction : r.direction?.or (some s.search.direction) = some s'.search.direction
  last : r.sought?.or s.search.last = s'.search.last
  pattern : r.entered?.or (some s.search.pattern) = some s'.search.pattern
  unnamed : r.yanked?.or (some s.unnamed) = some s'.unnamed

/-- A call that yields no action, brings no text and keeps registers and search changes nothing that is
remembered. -/
theorem remembers_of_same {s s' : State} {c : Call} (hm : s'.lastMotion = s.lastMotion)
    (hr : s'.registers = s.registers) (hs : s'.search = s.search)
    (hsought : Record.sought? ⟨c, none⟩ = none) (hentered : Record.entered? ⟨c, none⟩ = none)
    (hyanked : Record.yanked? ⟨c, none⟩ = none) : Remembers s s' ⟨c, none⟩ := by
  constructor
  · exact hm.symm
  · rw [hs]
    rfl
  · rw [hsought, hs]
    rfl
  · rw [hentered, hs]
    rfl
  · rw [hyanked, State.unnamed, State.unnamed, hr]
    rfl

theorem remembers_of_keeps {s s' : State} {k : Key} {a? : Option Action} (h : State.Keeps s s' a?) :
    Remembers s s' ⟨.key k, a?⟩ := by
  obtain ⟨hm, hr, hs⟩ := h
  have hu : s'.unnamed = s.unnamed := by rw [State.unnamed, State.unnamed, hr]
  cases hd : a?.bind Action.direction? <;> rw [hd] at hs <;>
    exact ⟨hm.symm, by simp [Record.direction?, hd, hs], by simp [Record.sought?, hs],
      by simp [Record.entered?, Record.direction?, hd, hs], by simp [Record.yanked?, hu]⟩

theorem remembers_control (s : State) (c : State.Control) :
    Remembers s (s.steered c) ⟨.control c, none⟩ := by
  cases c with
  | yank text =>
    refine ⟨rfl, rfl, rfl, rfl, ?_⟩
    exact congrArg some (s.registers.get_set_self Bank.unnamed text).symm
  | pattern p =>
    refine ⟨rfl, rfl, ?_, rfl, rfl⟩
    by_cases hp : p = "" <;> simp [Record.sought?, State.steered, State.setPattern, hp]
  | toggle =>
    have h : (s.steered .toggle).lastMotion = s.lastMotion ∧
        (s.steered .toggle).registers = s.registers ∧ (s.steered .toggle).search = s.search := by
      simp only [State.steered]
      split <;> exact ⟨rfl, rfl, rfl⟩
    exact remembers_of_same h.1 h.2.1 h.2.2 rfl rfl rfl
  | setMode m => exact remembers_of_same rfl rfl rfl rfl rfl rfl
  | enable => exact remembers_of_same rfl rfl rfl rfl rfl rfl
  | disable => exact remembers_of_same rfl rfl rfl rfl rfl rfl

theorem remembers (h : s.state.Consistent) (c : Call) :
    Remembers s.state (s.step c).state ⟨c, s.yielded c⟩ := by
  cases c with
  | key k => exact remembers_of_keeps (h.keeps s.keymap k)
  | control c =>
    simp only [step, turn, State.control_state]
    exact remembers_control s.state c
  | modeNamed name =>
    simp only [step, turn]
    cases Mode.parse name with
    | error e => exact remembers_of_same rfl rfl rfl rfl rfl rfl
    | ok m =>
      have hm := State.control_state s.state (.setMode m)
      change Remembers s.state (s.state.control (.setMode m)).state _
      rw [hm]
      exact remembers_of_same rfl rfl rfl rfl rfl rfl
  | edit r => exact remembers_of_same rfl rfl rfl rfl rfl rfl

/-- What a state remembers is what the latest call that says so has made of it. -/
theorem latest?_history {α : Type} {find : Record → Option α} {v : State → Option α}
    (hv : ∀ s s' r, Remembers s s' r → (find r).or (v s) = v s')
    (h : s.state.Consistent) (cs : List Call) :
    (latest? find (s.history cs)).or (v s.state) = v (s.run cs).state := by
  refine latest?_gather (p := fun _ _ => True) ?_ h (along_of_forall (fun _ _ => trivial) s cs)
  intro s c hs _
  rw [← hv s.state (s.step c).state ⟨c, s.yielded c⟩ (remembers hs c)]
  cases hf : find ⟨c, s.yielded c⟩ <;> simp [latest?, hf]

/-- What is remembered after any calls, failed ones and changes of the keymap included: the last motion
is that of the last action that was one; the way to search is that of the last search that began; the
last pattern is the last that a host collected and that was not empty; the pattern being entered is the
last one collected, unless a search has begun since; and the unnamed register holds the last text that
was put there. A search that does not begin anew is for the last pattern, and keeps the way. Sessions have
no observers, so calls that one of them makes fail are left out. -/
theorem memory_of_history (enabled : Bool) (t : Keymap) (calls : List Call) :
    let now := (fresh enabled t).run calls
    let past := (fresh enabled t).history calls
    now.state.lastMotion = latest? Record.motion? past ∧
    now.state.search.direction = (latest? Record.direction? past).getD .forward ∧
    now.state.search.last = latest? Record.sought? past ∧
    now.state.search.pattern = (latest? Record.entered? past).getD "" ∧
    now.state.unnamed = (latest? Record.yanked? past).getD [] ∧
    (∀ k a, (now.state.handle now.keymap k).2 = .ok a → a.kind = .search → a.direction? = none →
      a.pattern = now.state.search.last ∧
        (now.step (.key k)).state.search.direction = now.state.search.direction) := by
  intro now past
  have hstart : (fresh enabled t).state.Consistent := State.Consistent.fresh enabled
  have hnow : now.state.Consistent := consistent_run hstart calls
  have hmotion := latest?_history (v := State.lastMotion) (fun _ _ _ h => h.lastMotion) hstart calls
  have hdirection := latest?_history (v := fun s => some s.search.direction)
    (fun _ _ _ h => h.direction) hstart calls
  have hlast := latest?_history (v := fun s => s.search.last) (fun _ _ _ h => h.last) hstart calls
  have hpattern := latest?_history (v := fun s => some s.search.pattern)
    (fun _ _ _ h => h.pattern) hstart calls
  have hunnamed := latest?_history (v := fun s => some s.unnamed)
    (fun _ _ _ h => h.unnamed) hstart calls
  rw [Option.or_some, Option.some.injEq] at hdirection hpattern hunnamed
  refine ⟨?_, hdirection.symm, ?_, hpattern.symm, hunnamed.symm, ?_⟩
  · rw [← hmotion]
    exact Option.or_none
  · rw [← hlast]
    exact Option.or_none
  · intro k a ha hk hd
    refine ⟨hnow.pattern_of_repeated ha hk hd, ?_⟩
    have hs := (hnow.keeps now.keymap k).search
    rw [ha] at hs
    simp only [Except.toOption, Option.bind_some, hd] at hs
    exact congrArg Search.direction hs

end Session
end ModalEditing
