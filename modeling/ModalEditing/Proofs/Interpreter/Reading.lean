import ModalEditing.Interpreter
import ModalEditing.Proofs.Keymap.Lawful

namespace ModalEditing

theorem Mode.parse_eq_ok_iff {name : String} {m : Mode} :
    Mode.parse name = .ok m ↔ m.name = name := by
  constructor
  · intro h
    unfold parse at h
    split at h
    · rename_i hf
      obtain rfl := Except.ok.inj h
      simpa using List.find?_some hf
    · exact nomatch h
  · rintro rfl
    exact parse_name m

theorem Mode.parse_eq_error {name : String} {e : UnknownName} (h : Mode.parse name = .error e) :
    ∀ m : Mode, m.name ≠ name := by
  intro m hm
  rw [parse_eq_ok_iff.mpr hm] at h
  exact nomatch h

/-- The name of the mode that a binding leads to, if it leads to one. -/
def Binding.target? (b : Binding) : Option String :=
  match b.kind with
  | .edit | .modeChange => b.switchTo.filter (· ≠ "")
  | .motion | .search => none

/-- Edits and mode changes lead where they say, if what they name is a mode. -/
theorem Binding.target?_eq {b : Binding}
    (h : ∀ name, b.switchTo = some name → ∃ m : Mode, m.name = name) :
    b.target? = if b.kind = .edit ∨ b.kind = .modeChange then b.switchTo else none := by
  have hname : b.switchTo.filter (· ≠ "") = b.switchTo := by
    cases hs : b.switchTo with
    | none => rfl
    | some name =>
      obtain ⟨m, rfl⟩ := h name hs
      cases m <;> rfl
  cases hk : b.kind with
  | motion | search => simp [Binding.target?, hk]
  | edit | modeChange => simpa [Binding.target?, hk] using hname

def Binding.direction? (b : Binding) : Option Direction :=
  if b.kind = .search then Direction.ofSearch? b.action else none

namespace State
variable {s s' : State} {t : Keymap} {k : Key}

def Idle (s : State) : Prop := s.digits = "" ∧ s.leader = ""

theorem idle_resetPending (s : State) : s.resetPending.Idle := ⟨rfl, rfl⟩

theorem idle_switch (s : State) (m : Mode) : (s.switch m).Idle := ⟨rfl, rfl⟩

/-- The keys of a command typed so far, with this token as the latest. -/
def typed (s : State) (token : String) : List String :=
  if s.leader = "" then [token] else [s.leader, token]

def countFor (s : State) (b : Binding) : Except Number.ReadError Int :=
  if b.counted then s.number else .ok 1

/-- A key completes a binding of the group in use: it is neither a digit of a count nor the first
key of a doubled binding. -/
structure Completes (s : State) (t : Keymap) (k : Key) (g : Group) (b : Binding) : Prop where
  not_escape : k.name ≠ escapeName
  group : s.mode.group? = some g
  not_digit : s.countsDigit g k.token = false
  not_leader : s.leader = "" → t.isLeader g k.token = false
  found : t.find? g (s.typed k.token) = some b

inductive Reading (s : State) (t : Keymap) (k : Key) : State × Except Fault Action → Prop
  | quit (hn : k.name = escapeName) (hm : s.mode ≠ .normal) :
    Reading s t k (s.switch .normal, .ok (.modeChange Mode.normal.name))
  | cancel (hn : k.name = escapeName) (hm : s.mode = .normal) :
    Reading s t k (s.resetPending, .ok .nothing)
  | text (hn : k.name ≠ escapeName) (hm : s.mode.group? = none) : Reading s t k (s, .ok .nothing)
  | digit (g : Group) (hn : k.name ≠ escapeName) (hm : s.mode.group? = some g)
      (hd : s.countsDigit g k.token = true) :
    Reading s t k ({ s with digits := s.digits ++ k.token }, .ok .nothing)
  | leader (g : Group) (hn : k.name ≠ escapeName) (hm : s.mode.group? = some g)
      (hs : s.leader = "") (hl : t.isLeader g k.token = true) :
    Reading s t k ({ s with leader := k.token }, .ok .nothing)
  | unknown (g : Group) (hn : k.name ≠ escapeName) (hm : s.mode.group? = some g)
      (hd : s.countsDigit g k.token = false) (hf : t.find? g (s.typed k.token) = none) :
    Reading s t k (s.resetPending, .ok .nothing)
  | command (g : Group) (b : Binding) (h : Completes s t k g b)
      {r : State × Except Fault Action} (hr : s.resolve b = r) : Reading s t k r

/-- The keys of a doubled binding are equal, so that only its leader can complete it. -/
theorem find?_pair (t : Keymap) (g : Group) {first second : String} (h : second ≠ first) :
    t.find? g [first, second] = none := by
  rw [Keymap.find?_eq_none]
  intro b _ hs
  unfold Binding.sequence at hs
  split at hs
  · obtain ⟨rfl, rfl⟩ : b.key = first ∧ b.key = second := by simpa using hs
    exact h rfl
  · exact nomatch hs

/-- Reading a token beyond the digits of a count and the first key of a doubled binding. -/
theorem readToken_eq {g : Group} {token : String} (hd : s.countsDigit g token = false)
    (hl : s.leader = "" → t.isLeader g token = false) :
    s.readToken t g token = s.resolve? (t.find? g (s.typed token)) := by
  by_cases hs : s.leader = ""
  · simp [readToken, hd, hs, hl hs, typed]
  · by_cases hk : token = s.leader
    · subst hk
      simp [readToken, hd, hs, typed]
    · simp [readToken, hd, hs, hk, typed, find?_pair t g hk]

theorem readKey_of_completes {g : Group} {b : Binding} (h : Completes s t k g b) :
    s.readKey t k = s.resolve b := by
  rw [readKey, if_neg h.not_escape, h.group]
  simp only [readToken_eq h.not_digit h.not_leader, h.found, resolve?]

theorem reading (s : State) (t : Keymap) (k : Key) : Reading s t k (s.readKey t k) := by
  by_cases hn : k.name = escapeName
  · by_cases hm : s.mode = .normal
    · rw [readKey, if_pos hn, if_pos hm]
      exact .cancel hn hm
    · rw [readKey, if_pos hn, if_neg hm]
      exact .quit hn hm
  rw [readKey, if_neg hn]
  cases hm : s.mode.group? with
  | none => exact .text hn hm
  | some g =>
    simp only
    cases hd : s.countsDigit g k.token with
    | true =>
      rw [readToken, if_pos hd]
      exact .digit g hn hm hd
    | false =>
      -- Past the count only the first press of a leader is not looked up.
      by_cases hl : s.leader = "" ∧ t.isLeader g k.token = true
      · rw [readToken, if_neg (by simp [hd]), if_neg (by simp [hl.1]), if_pos hl.2]
        exact .leader g hn hm hl.1 hl.2
      · have hl' : s.leader = "" → t.isLeader g k.token = false := fun hs => by
          simpa using fun h => hl ⟨hs, h⟩
        rw [readToken_eq hd hl']
        cases hf : t.find? g (s.typed k.token) with
        | none => exact .unknown g hn hm hd hf
        | some b => exact .command g b ⟨hn, hm, hd, hl', hf⟩ rfl

/-- Following where a binding leads fails just where it leads to no mode. -/
theorem follow_eq (s : State) {b : Binding} (hk : b.kind = .edit ∨ b.kind = .modeChange) :
    s.follow b.switchTo = match b.target? with
      | none => .ok s
      | some name => match Mode.parse name with
        | .ok m => .ok (s.switch m)
        | .error e => .error (.badMode e) := by
  have ht : b.target? = b.switchTo.filter (· ≠ "") := by
    rcases hk with h | h <;> simp [Binding.target?, h]
  rw [ht]
  cases b.switchTo with
  | none => rfl
  | some name =>
    by_cases hn : name = ""
    · subst hn
      rfl
    · have hf : (some name).filter (fun x => decide (x ≠ "")) = some name := by simp [hn]
      cases hp : Mode.parse name <;> simp only [hf, follow, if_neg hn, hp]

/-- What carrying out a binding `n` times leaves and yields where it succeeds. -/
structure Performed (s : State) (b : Binding) (n : ℕ) (s' : State) (a : Action) : Prop where
  idle : s'.Idle
  enabled : s'.enabled = s.enabled
  mode : s'.mode.name = b.target?.getD s.mode.name
  lastMotion : s'.lastMotion = if b.kind = .motion then some b.action else s.lastMotion
  registers : s'.registers = s.registers
  search : s'.search = match b.direction? with
    | some d => { s.search with direction := d, pattern := "" }
    | none => s.search
  kind : a.kind = b.kind.actionKind
  name : a.name = some b.action
  count : a.count = if b.kind = .motion ∨ b.kind = .edit then n else 1
  pattern : a.pattern = if b.kind = .search ∧ b.direction? = none then s.search.last else none

theorem make_pos (kind : ActionKind) (name : Option String) {n : ℕ} (hn : 0 < n) :
    Action.make kind name n none none = .ok { kind, name, count := n, count_pos := hn } := by
  rw [Action.make, dif_pos (by omega)]
  simp

/-- How carrying out a binding ends: where it leads to no mode, only what was pending is lost. -/
inductive Performing (s : State) (b : Binding) (n : ℕ) : State × Except Fault Action → Prop
  | lost (name : String) (e : UnknownName) (ht : b.target? = some name)
      (hm : Mode.parse name = .error e) : Performing s b n (s.resetPending, .error (.badMode e))
  | done (s' : State) (a : Action) (h : Performed s b n s' a)
      (hm : ∀ name, b.target? = some name → ∃ m : Mode, m.name = name) :
    Performing s b n (s', .ok a)

/-- Edits and mode changes follow where their binding leads, and yield one action wherever that is. -/
theorem perform_following (s : State) {b : Binding} {n : ℕ} (hn : 0 < n)
    (hk : b.kind = .edit ∨ b.kind = .modeChange) :
    ∃ a : Action, a.kind = b.kind.actionKind ∧ a.name = some b.action ∧
      a.count = (if b.kind = .edit then n else 1) ∧ a.pattern = none ∧
      s.perform b n = match s.resetPending.follow b.switchTo with
        | .ok s' => (s', .ok a)
        | .error e => (s.resetPending, .error e) := by
  rcases hk with hk | hk
  · refine ⟨{ kind := .edit, name := b.action, count := n, count_pos := hn }, ?_⟩
    cases hf : s.resetPending.follow b.switchTo <;>
      simp [perform, hk, hf, Action.edit, make_pos _ _ hn, BindingKind.actionKind, Except.mapError]
  · refine ⟨.modeChange b.action, ?_⟩
    cases hf : s.resetPending.follow b.switchTo <;>
      simp [perform, hk, hf, Action.modeChange, BindingKind.actionKind]

theorem performing_following (s : State) {b : Binding} {n : ℕ} (hn : 0 < n)
    (hk : b.kind = .edit ∨ b.kind = .modeChange) : Performing s b n (s.perform b n) := by
  obtain ⟨a, hkind, hname, hcount, hpattern, hp⟩ := s.perform_following hn hk
  have hmotion : b.kind ≠ .motion := by rcases hk with h | h <;> simp [h]
  have hsearch : b.kind ≠ .search := by rcases hk with h | h <;> simp [h]
  have performed (m : Mode) (hm : m.name = b.target?.getD s.mode.name) :
      Performed s b n (s.switch m) a := by
    constructor <;> simp_all [Idle, switch, resetPending, Binding.direction?]
  rw [hp, follow_eq _ hk]
  cases ht : b.target? with
  | none => exact .done s.resetPending a (performed s.mode (by rw [ht]; rfl)) (by simp [ht])
  | some name =>
    cases hm : Mode.parse name with
    | error e =>
      simp only [hm]
      exact .lost name e ht hm
    | ok m =>
      have hmn := Mode.parse_eq_ok_iff.mp hm
      simp only [hm]
      refine .done (s.switch m) a (performed m (by rw [ht]; exact hmn)) ?_
      intro name' hn'
      exact ⟨m, hmn.trans (Option.some.inj (ht.symm.trans hn'))⟩

theorem performing (s : State) (b : Binding) {n : ℕ} (hn : 0 < n) :
    Performing s b n (s.perform b n) := by
  cases hk : b.kind with
  | motion =>
    have hp : s.perform b n = ({ s.resetPending with lastMotion := some b.action },
        .ok { kind := .motion, name := b.action, count := n, count_pos := hn }) := by
      simp [perform, hk, Action.motion, make_pos _ _ hn, Except.mapError]
    rw [hp]
    refine .done _ _ ?_ (by simp [Binding.target?, hk])
    constructor <;> simp [hk, Idle, resetPending, Binding.target?, Binding.direction?,
      BindingKind.actionKind]
  | search =>
    have hdir : b.direction? = Direction.ofSearch? b.action := by simp [Binding.direction?, hk]
    simp only [perform, hk]
    refine .done _ _ ?_ (by simp [Binding.target?, hk])
    cases hd : Direction.ofSearch? b.action <;>
      constructor <;> simp [hk, hdir, hd, find, Idle, resetPending, Action.search, Binding.target?,
        BindingKind.actionKind]
  | modeChange => exact s.performing_following hn (.inr hk)
  | edit => exact s.performing_following hn (.inl hk)

theorem resolve_eq (s : State) (b : Binding) :
    s.resolve b = match s.countFor b with
      | .ok n => s.perform b n
      | .error e => (s, .error (.badCount e)) := by
  unfold resolve countFor
  cases b.counted <;> rfl

end State
end ModalEditing
