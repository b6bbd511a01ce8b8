import ModalEditing.Proofs.Interpreter.Consistent

namespace ModalEditing

namespace State
variable {s : State} {t : Keymap} {k : Key} {g : Group}

/-- A digit's key is written with one character, so it is not the escape key. -/
theorem not_escape_of_digit {c : Char} (h : k.token = String.singleton c) : k.name ≠ escapeName := by
  intro hn
  have hl := congrArg (fun token => token.toList.length) h
  simp only [Key.token, hn, escapeName, String.toList_ofList, List.length_append,
    String.toList_singleton, List.length_singleton] at hl
  have h6 : "escape".toList.length = 6 := by decide
  omega

theorem readKey_of_digit (hn : k.name ≠ escapeName) (hm : s.mode.group? = some g)
    (hd : s.countsDigit g k.token = true) :
    s.readKey t k = ({ s with digits := s.digits ++ k.token }, .ok .nothing) := by
  rw [readKey, if_neg hn, hm]
  simp [readToken, hd]

theorem readKey_of_leader (hn : k.name ≠ escapeName) (hm : s.mode.group? = some g)
    (hd : s.countsDigit g k.token = false) (hs : s.leader = "") (hl : t.isLeader g k.token = true) :
    s.readKey t k = ({ s with leader := k.token }, .ok .nothing) := by
  rw [readKey, if_neg hn, hm]
  simp [readToken, hd, hs, hl]

end State

namespace Session
variable {s : Session} {k : Key}

def outcomes (s : Session) : List Key → List (Except Fault Action)
  | [] => []
  | k :: ks => (s.state.handle s.keymap k).2 :: (s.step (.key k)).outcomes ks

def typed (s : Session) (ks : List Key) : Session := s.run (ks.map .key)

theorem typed_append (s : Session) (ks ks' : List Key) :
    s.typed (ks ++ ks') = (s.typed ks).typed ks' := by
  simp [typed, run_append]

theorem outcomes_append (s : Session) (ks ks' : List Key) :
    s.outcomes (ks ++ ks') = s.outcomes ks ++ (s.typed ks).outcomes ks' := by
  induction ks generalizing s with
  | nil => rfl
  | cons k ks ih =>
    simp only [List.cons_append, outcomes, ih]
    rfl

theorem step_key (he : s.state.enabled = true) (k : Key) :
    s.step (.key k) = ⟨(s.state.readKey s.keymap k).1, s.keymap⟩ := by
  simp only [step, turn, keymapAfter, (State.handle_of_enabled he s.keymap k).1]

/-- A key that reads as nothing leaves what it reads to. -/
theorem typed_of_nothing (he : s.state.enabled = true) {s' : State}
    (hr : s.state.readKey s.keymap k = (s', .ok .nothing)) :
    s.typed [k] = ⟨s', s.keymap⟩ ∧ s.outcomes [k] = [.ok .nothing] := by
  constructor
  · simp [typed, step_key he k, hr]
  · simp [outcomes, (State.handle_of_enabled he s.keymap k).2, hr]

def Types (ks : List Key) (u : Text) : Prop := ks.map Key.token = u.map String.singleton

/-- In normal mode digits are taken into the count, as long as it is a count with them. -/
theorem type_digits {ks : List Key} {u : Text} (hks : Types ks u) (he : s.state.enabled = true)
    (hm : u ≠ [] → s.state.mode = .normal)
    (hc : Number.IsCount (s.state.digits.toList ++ u)) :
    s.typed ks = ⟨{ s.state with digits := s.state.digits ++ String.ofList u }, s.keymap⟩ ∧
      s.outcomes ks = List.replicate ks.length (.ok .nothing) := by
  induction u generalizing ks s with
  | nil =>
    obtain rfl : ks = [] := by simpa [Types] using hks
    simp [typed, outcomes]
  | cons c u ih =>
    obtain ⟨k, ks, rfl, hk, hks⟩ : ∃ k ks', ks = k :: ks' ∧ k.token = String.singleton c ∧
        Types ks' u := List.map_eq_cons_iff.mp hks
    have hmode := hm (List.cons_ne_nil c u)
    have hdigit : c.isDigit = true := hc.1 c (by simp)
    -- Only a zero that begins the count would not be counted.
    have hzero : k.token ≠ "0" ∨ s.state.digits ≠ "" := by
      by_contra hno
      obtain ⟨hz, hs⟩ := not_or.mp hno
      have hchar := congrArg String.toList (hk.symm.trans (not_not.mp hz))
      have hc0 : c = '0' := by simpa using hchar
      exact hc.2 (by simp [not_not.mp hs, hc0])
    have hcount : s.state.countsDigit .normal k.token = true :=
      (s.state.countsDigit_iff .normal k.token).mpr
        ⟨rfl, (isDigitToken_iff k.token).mpr ⟨c, hdigit, hk⟩, hzero⟩
    have hread := State.readKey_of_digit (t := s.keymap) (State.not_escape_of_digit hk)
      (by rw [hmode]; rfl) hcount
    obtain ⟨hstate, hout⟩ := typed_of_nothing he hread
    obtain ⟨hstate', hout'⟩ := ih (s := s.typed [k]) hks (by rw [hstate]; exact he)
      (by rw [hstate]; exact fun _ => hmode) (by rw [hstate]; simpa [hk] using hc)
    constructor
    · have hdigits : s.state.digits ++ k.token ++ String.ofList u
          = s.state.digits ++ String.ofList (c :: u) := by
        apply String.toList_inj.mp
        simp [hk]
      rw [← List.singleton_append, typed_append, hstate', hstate, hdigits]
    · rw [← List.singleton_append, outcomes_append, hout, hout', List.length_append,
        List.length_singleton, Nat.add_comm, List.replicate_succ, List.singleton_append]

/-- Digits that can be typed to a binding: `u` before its key, and `v` before it is pressed again. In
normal mode they are a count, and a key that is a digit itself takes none; the visual modes take none at
all. -/
structure Typable (b : Binding) (u v : Text) : Prop where
  count : Number.IsCount (u ++ v)
  single : b.doubled = false → v = []
  visual : b.group = .visual → u ++ v = []
  zero : b.group = .normal → isDigitToken b.key = true → b.key = "0" ∧ u ++ v = []

/-- A key that a binding waits for is not taken into the count. -/
theorem Typable.not_digit {b : Binding} {u v : Text} (h : Typable b u v) {s : State}
    (hd : u ++ v = [] → s.digits = "") : s.countsDigit b.group b.key = false := by
  rw [Bool.eq_false_iff]
  intro hc
  obtain ⟨hg, hdigit, hzero⟩ := (s.countsDigit_iff b.group b.key).mp hc
  obtain ⟨hk, hnil⟩ := h.zero hg hdigit
  exact hzero.elim (fun hn => hn hk) (fun hn => hn (hd hnil))

/-- Keys `us` and `vs` type the digits `u` and `v` to a binding of the group in use, whose key is `e`,
while nothing else is pending. -/
structure Typing (s : State) (t : Keymap) (b : Binding) (e : Key) (us vs : List Key) (u v : Text) :
    Prop where
  lawful : t.Lawful
  mem : b ∈ t.bucket b.group
  enabled : s.enabled = true
  group : s.mode.group? = some b.group
  idle : s.Idle
  token : e.token = b.key
  not_escape : e.name ≠ escapeName
  before : Types us u
  between : Types vs v
  typable : Typable b u v

namespace Typing
variable {s : State} {t : Keymap} {b : Binding} {e : Key} {us vs : List Key} {u v : Text}

theorem normal (h : Typing s t b e us vs u v) (hne : u ++ v ≠ []) : s.mode = .normal := by
  cases hg : b.group with
  | normal => exact State.normal_of_group (h.group.trans (congrArg some hg))
  | visual => exact absurd (h.typable.visual hg) hne

theorem consistent (h : Typing s t b e us vs u v) {keys : List Key} {p : State}
    (hp : Session.typed ⟨s, t⟩ keys = ⟨p, t⟩) : p.Consistent := by
  have hrun : (Session.typed ⟨s, t⟩ keys).state.Consistent :=
    consistent_run h.idle.consistent (keys.map .key)
  rwa [hp] at hrun

theorem type_before (h : Typing s t b e us vs u v) :
    Session.typed ⟨s, t⟩ us = ⟨{ s with digits := String.ofList u }, t⟩ ∧
      Session.outcomes ⟨s, t⟩ us = List.replicate us.length (.ok .nothing) := by
  have hcount : Number.IsCount u := by
    refine ⟨fun c hc => h.typable.count.1 c (List.mem_append_left v hc), ?_⟩
    intro hz
    exact h.typable.count.2 (by simp [hz])
  have hnormal : u ≠ [] → s.mode = .normal := fun hne =>
    h.normal fun hnil => hne (List.append_eq_nil_iff.mp hnil).1
  have ht := type_digits (s := ⟨s, t⟩) h.before h.enabled hnormal (by simpa [h.idle.1] using hcount)
  rwa [h.idle.1, String.empty_append] at ht

/-- The first press of a doubled binding is waited for to be repeated, and digits are still taken. -/
theorem type_between (h : Typing s t b e us vs u v) (hd : b.doubled = true) :
    Session.typed ⟨s, t⟩ (us ++ [e] ++ vs)
        = ⟨{ s with digits := String.ofList (u ++ v), leader := b.key }, t⟩ ∧
      Session.outcomes ⟨s, t⟩ (us ++ [e] ++ vs)
        = List.replicate (us ++ [e] ++ vs).length (.ok .nothing) := by
  obtain ⟨hfirst, hout⟩ := h.type_before
  have hdigit : ({ s with digits := String.ofList u } : State).countsDigit b.group e.token = false := by
    rw [h.token]
    exact h.typable.not_digit fun hnil => by simp [(List.append_eq_nil_iff.mp hnil).1]
  have hleader : t.isLeader b.group e.token = true :=
    (t.isLeader_iff b.group e.token).mpr ⟨b, h.mem, hd, h.token.symm⟩
  obtain ⟨hpress, hout'⟩ := typed_of_nothing (s := ⟨{ s with digits := String.ofList u }, t⟩) h.enabled
    (State.readKey_of_leader h.not_escape h.group hdigit h.idle.2 hleader)
  have hnormal : v ≠ [] → s.mode = .normal := fun hne =>
    h.normal fun hnil => hne (List.append_eq_nil_iff.mp hnil).2
  obtain ⟨hrest, hout''⟩ := type_digits
    (s := ⟨{ s with digits := String.ofList u, leader := e.token }, t⟩) h.between h.enabled hnormal
    (by simpa using h.typable.count)
  constructor
  · rw [typed_append, typed_append, hfirst, hpress, hrest, h.token, String.ofList_append]
  · rw [outcomes_append, outcomes_append, typed_append, hfirst, hpress, hout, hout', hout'']
    simp [List.replicate_add, List.replicate_succ]

theorem completes (h : Typing s t b e us vs u v) {p : State} (hm : p.mode = s.mode)
    (hd : p.digits = String.ofList (u ++ v)) (hl : p.leader = if b.doubled then b.key else "") :
    p.Completes t e b.group b := by
  have hs : p.typed e.token = b.sequence := by
    cases hdouble : b.doubled <;>
      simp [State.typed, hl, hdouble, Binding.sequence, h.token, b.key_ne]
  refine ⟨h.not_escape, by rw [hm, h.group], ?_, ?_, ?_⟩
  · rw [h.token]
    exact h.typable.not_digit fun hnil => by simp [hd, hnil]
  · intro hnone
    have hsingle : b.doubled = false := by
      by_contra hdouble
      simp [hl, hdouble, b.key_ne] at hnone
    rw [h.token]
    exact h.lawful.not_isLeader_of_single h.mem hsingle
  · rw [hs]
    exact h.lawful.find?_eq_some_iff.mpr ⟨h.mem, rfl⟩

/-- All the keys but the last leave just the digits and the leader pending. -/
theorem type_all_but_last (h : Typing s t b e us vs u v) :
    let keys := if b.doubled then us ++ [e] ++ vs else us
    ∃ p : State, Session.typed ⟨s, t⟩ keys = ⟨p, t⟩ ∧
      Session.outcomes ⟨s, t⟩ keys = List.replicate keys.length (.ok .nothing) ∧
      p.Completes t e b.group b ∧ p.digits = String.ofList (u ++ v) ∧ p.enabled = true ∧
      p.mode = s.mode := by
  cases hd : b.doubled with
  | false =>
    -- Nothing can be typed between the presses of a key that is pressed once.
    obtain rfl : v = [] := h.typable.single hd
    obtain ⟨hstate, hout⟩ := h.type_before
    refine ⟨_, hstate, hout, h.completes rfl ?_ ?_, ?_, h.enabled, rfl⟩
    · rw [List.append_nil]
    · simp [hd, h.idle.2]
    · rw [List.append_nil]
  | true =>
    obtain ⟨hstate, hout⟩ := h.type_between hd
    exact ⟨_, hstate, hout, h.completes rfl rfl (by simp [hd]), rfl, h.enabled, rfl⟩

end Typing

/-- Where a binding completes with few enough digits, and leads to a mode if anywhere, it is done. -/
theorem press_done {p : Session} {e : Key} {g : Group} {b : Binding} (hp : p.state.Consistent)
    (he : p.state.enabled = true) (h : p.state.Completes p.keymap e g b)
    (hl : p.state.digits.length ≤ Number.digitLimit)
    (hm : ∀ name, b.target? = some name → ∃ m : Mode, m.name = name) :
    ∃ a, p.outcomes [e] = [.ok a] ∧
      p.state.Performed b (p.state.countOf b) (p.typed [e]).state a := by
  have hr := hp.resolving b
  rw [← State.readKey_of_completes h] at hr
  have hstate : (p.typed [e]).state = (p.state.readKey p.keymap e).1 := by
    simp [typed, step_key he]
  have hout : p.outcomes [e] = [(p.state.readKey p.keymap e).2] := by
    simp [outcomes, (State.handle_of_enabled he p.keymap e).2]
  rw [hstate, hout]
  generalize p.state.readKey p.keymap e = r at hr ⊢
  cases hr with
  | tooLong hc hn => exact absurd hl (Nat.not_le_of_lt hn)
  | lost name e ht hn =>
    obtain ⟨m, hname⟩ := hm name ht
    exact absurd hname (Mode.parse_eq_error hn m)
  | done s' a hd hc hm => exact ⟨a, rfl, hd⟩

/-- Every binding of any history can be reached, with any count that fits, typed before its key, or
around the first press of a doubled one: all keys but the last yield nothing, the last one the action;
then nothing is pending, and the mode is the one that the binding leads to. -/
theorem binding_reached (logger : Option String) (rs : List Keymap.Request) (b : Binding)
    (hb : b ∈ (Keymap.reached logger rs).bindings)
    (hm : ∀ name, b.switchTo = some name → ∃ m : Mode, m.name = name)
    (s : State) (he : s.enabled = true) (hg : s.mode.group? = some b.group) (hi : s.Idle)
    (e : Key) (hkey : e.token = b.key) (hesc : e.name ≠ escapeName)
    (us vs : List Key) (u v : Text) (hu : Types us u) (hv : Types vs v) (h : Typable b u v)
    (hshort : (u ++ v).length ≤ Number.digitLimit) :
    let start : Session := ⟨s, Keymap.reached logger rs⟩
    let before := if b.doubled then us ++ [e] ++ vs else us
    let finish := (start.typed (before ++ [e])).state
    ∃ a, start.outcomes (before ++ [e]) = List.replicate before.length (.ok .nothing) ++ [.ok a] ∧
      a.kind = b.kind.actionKind ∧ a.name = some b.action ∧
      a.count = (if b.counted = true ∧ (b.kind = .motion ∨ b.kind = .edit) ∧ u ++ v ≠ []
        then Number.decimal (u ++ v) else 1) ∧
      finish.Idle ∧
      finish.mode.name = (if b.kind = .edit ∨ b.kind = .modeChange
        then b.switchTo.getD s.mode.name else s.mode.name) := by
  intro start before finish
  have law := Keymap.lawful_reached logger rs
  obtain ⟨g, hmem⟩ := (Keymap.mem_bindings _ b).mp hb
  obtain rfl : b.group = g := law.group_eq g b hmem
  have ht : Typing s (Keymap.reached logger rs) b e us vs u v :=
    ⟨law, hmem, he, hg, hi, hkey, hesc, hu, hv, h⟩
  obtain ⟨p, hstate, hout, hcomplete, hdigits, hpe, hpm⟩ := ht.type_all_but_last
  have htarget := Binding.target?_eq hm
  have hmode : ∀ name, b.target? = some name → ∃ m : Mode, m.name = name := by
    intro name hn
    rw [htarget] at hn
    split at hn
    · exact hm name hn
    · exact nomatch hn
  obtain ⟨a, hlast, hdone⟩ := press_done (p := ⟨p, Keymap.reached logger rs⟩) (ht.consistent hstate) hpe
    hcomplete (by simpa [hdigits] using hshort) hmode
  have hfinish : finish = (Session.typed ⟨p, Keymap.reached logger rs⟩ [e]).state := by
    simp only [finish, typed_append, start, before, hstate]
  refine ⟨a, ?_, hdone.kind, hdone.name, ?_, ?_, ?_⟩
  · rw [outcomes_append, hout, hstate, hlast]
  · have hcount : p.countOf b = if b.counted = true ∧ u ++ v ≠ [] then Number.decimal (u ++ v) else 1 := by
      simp only [State.countOf, hdigits, String.toList_ofList, ne_eq, String.ofList_eq_empty_iff]
    rw [hdone.count, hcount]
    by_cases hk : b.kind = .motion ∨ b.kind = .edit
    · rw [if_pos hk]
      by_cases hc : b.counted = true ∧ u ++ v ≠ []
      · rw [if_pos hc, if_pos ⟨hc.1, hk, hc.2⟩]
      · rw [if_neg hc, if_neg fun hall => hc ⟨hall.1, hall.2.2⟩]
    · rw [if_neg hk, if_neg fun hall => hk hall.2.1]
  · rw [hfinish]
    exact hdone.idle
  · rw [hfinish, hdone.mode, htarget, hpm]
    split_ifs <;> rfl

/-- Twelve typed before the first press of `c` and three before the second change 123 lines. -/
theorem change_lines_reached :
    let c : Key := { name := "c" }
    let keys : List Key := [{ name := "1" }, { name := "2" }, c, { name := "3" }, c]
    let start : Session := ⟨{ enabled := true }, Keymap.reached none [.loadDefaults false []]⟩
    ∃ a, start.outcomes keys = List.replicate 4 (.ok .nothing) ++ [.ok a] ∧ a.kind = .edit ∧
      a.name = some "change-line" ∧ a.count = 123 ∧ (start.typed keys).state.Idle ∧
      (start.typed keys).state.mode.name = "insert" := by
  intro c keys start
  obtain ⟨b, hb, hg, hk, hd, hkind, hc, hname, hs⟩ : ∃ b,
      (Keymap.reached none [.loadDefaults false []]).find? .normal ["c", "c"] = some b ∧
      b.group = .normal ∧ b.key = "c" ∧ b.doubled = true ∧ b.kind = .edit ∧ b.counted = true ∧
      b.action = "change-line" ∧ b.switchTo = some "insert" := by
    decide +kernel
  have hmem := (Keymap.mem_bindings _ b).mpr ⟨.normal, (Keymap.find?_eq_some hb).1⟩
  have typable : Typable b ['1', '2'] ['3'] := by
    refine ⟨⟨List.all_eq_true.mp rfl, by decide⟩, by simp [hd], by simp [hg], ?_⟩
    intro _ hdigit
    rw [hk] at hdigit
    exact absurd hdigit (by decide)
  obtain ⟨a, hout, hakind, haname, hcount, hidle, hmode⟩ :=
    binding_reached none [.loadDefaults false []] b hmem
      (fun name hn => ⟨.insert, Option.some.inj (hs.symm.trans hn)⟩) { enabled := true } rfl
      (by rw [hg]; rfl) ⟨rfl, rfl⟩ c (by rw [hk]; decide) (by decide)
      [{ name := "1" }, { name := "2" }] [{ name := "3" }] ['1', '2'] ['3'] (by unfold Types; decide)
      (by unfold Types; decide) typable (by decide)
  simp only [hd, hkind, hc, hname, hs, if_true] at hout hakind haname hcount hidle hmode
  exact ⟨a, hout, hakind, haname, hcount.trans (by decide), hidle, hmode⟩

end Session
end ModalEditing
