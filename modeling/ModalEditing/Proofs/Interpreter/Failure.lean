import ModalEditing.Proofs.Interpreter.Typing

namespace ModalEditing

namespace State
variable {s : State} {t : Keymap} {k : Key}

/-- A binding can be carried out: its count can be read, and where it leads to is a mode. -/
def Feasible (s : State) (b : Binding) : Prop :=
  (b.counted = true → s.digits.length ≤ Number.digitLimit) ∧
    ∀ name, b.target? = some name → ∃ m : Mode, m.name = name

theorem Consistent.resolve_ok_iff (h : s.Consistent) (b : Binding) :
    (∃ a, (s.resolve b).2 = .ok a) ↔ s.Feasible b := by
  have hr := h.resolving b
  generalize s.resolve b = r at hr ⊢
  cases hr with
  | tooLong hc hl =>
    constructor
    · rintro ⟨a, ha⟩
      exact nomatch ha
    · intro hf
      exact absurd (hf.1 hc) (Nat.not_le_of_lt hl)
  | lost name e ht hm =>
    constructor
    · rintro ⟨a, ha⟩
      exact nomatch ha
    · intro hf
      obtain ⟨m, hname⟩ := hf.2 name ht
      exact absurd hname (Mode.parse_eq_error hm m)
  | done s' a hd hc hm => exact ⟨fun _ => ⟨hc, hm⟩, fun _ => ⟨a, rfl⟩⟩

theorem Consistent.readKey_ok_iff (h : s.Consistent) :
    (∃ a, (s.readKey t k).2 = .ok a) ↔ ∀ g b, s.Completes t k g b → s.Feasible b := by
  constructor
  · intro ha g b hb
    rw [readKey_of_completes hb] at ha
    exact (h.resolve_ok_iff b).mp ha
  · intro hf
    have hr := s.reading t k
    generalize s.readKey t k = r at hr ⊢
    cases hr with
    | command g b hb hr => exact hr ▸ (h.resolve_ok_iff b).mpr (hf g b hb)
    | _ => exact ⟨_, rfl⟩

end State

namespace Session

/-- In every session a key yields an action, except where it completes a counted binding after more
digits than a number may have, or a binding that leads to no mode. -/
theorem handle_returns_iff (enabled : Bool) (t : Keymap) (calls : List Call) (k : Key) :
    let now := (fresh enabled t).run calls
    (∃ a, (now.state.handle now.keymap k).2 = .ok a) ↔
      (now.state.enabled = true → ∀ g b, now.state.Completes now.keymap k g b →
        (b.counted = true → now.state.digits.length ≤ Number.digitLimit) ∧
        ∀ name, b.target? = some name → ∃ m : Mode, m.name = name) := by
  intro now
  have hnow : now.state.Consistent := consistent_run (State.Consistent.fresh enabled) calls
  cases he : now.state.enabled with
  | false =>
    rw [State.handle_of_disabled he]
    constructor
    · intro _ hf
      exact nomatch hf
    · intro _
      exact ⟨_, rfl⟩
  | true =>
    rw [(State.handle_of_enabled he now.keymap k).2, hnow.readKey_ok_iff]
    exact ⟨fun h _ => h, fun h => h rfl⟩

/-- A counted binding is not carried out after too many digits, however they are typed to it. -/
theorem Typing.too_long {s : State} {t : Keymap} {b : Binding} {e : Key} {us vs : List Key}
    {u v : Text} (h : Typing s t b e us vs u v) (hc : b.counted = true)
    (hl : Number.digitLimit < (u ++ v).length) :
    let now := Session.typed ⟨s, t⟩ (if b.doubled then us ++ [e] ++ vs else us)
    (now.state.handle now.keymap e).2 = .error (.badCount (.tooLong (u ++ v).length)) := by
  intro now
  obtain ⟨p, hnow, -, hcomplete, hdigits, hpe, -⟩ := h.type_all_but_last
  have hlength : p.digits.length = (u ++ v).length := by
    rw [hdigits, String.length_ofList]
  have hcount : p.countFor b = .error (.tooLong (u ++ v).length) := by
    rw [(h.consistent hnow).countFor_eq, if_pos ⟨hc, hlength ▸ hl⟩, hlength]
  simp only [now, hnow]
  rw [(State.handle_of_enabled hpe t e).2, State.readKey_of_completes hcomplete, State.resolve_eq,
    hcount]

/-- With the built-in bindings, `j` after one digit too many is not carried out. -/
theorem move_down_fails :
    let now := (fresh true (Keymap.reached none [.loadDefaults false []])).run
      (List.replicate 4301 (.key { name := "1" }))
    (now.state.handle now.keymap { name := "j" }).2 = .error (.badCount (.tooLong 4301)) := by
  have hlimit : Number.digitLimit < 4301 := by decide
  generalize 4301 = n at hlimit ⊢
  obtain ⟨b, hb, hg, hk, hd, hc⟩ : ∃ b,
      (Keymap.reached none [.loadDefaults false []]).find? .normal ["j"] = some b ∧
      b.group = .normal ∧ b.key = "j" ∧ b.doubled = false ∧ b.counted = true := by
    decide +kernel
  have hones : Types (List.replicate n { name := "1" }) (List.replicate n '1') := by
    have hone : ({ name := "1" } : Key).token = String.singleton '1' := by decide
    rw [Types, List.map_replicate, List.map_replicate, hone]
  have typable : Typable b (List.replicate n '1') [] := by
    refine ⟨⟨?_, ?_⟩, fun _ => rfl, by simp [hg], ?_⟩
    · intro c hc
      rw [List.append_nil] at hc
      rw [List.eq_of_mem_replicate hc]
      rfl
    · simp [List.head?_replicate]
    · intro _ hdigit
      rw [hk] at hdigit
      exact absurd hdigit (by decide)
  have typing : Typing { enabled := true } (Keymap.reached none [.loadDefaults false []]) b
      { name := "j" } (List.replicate n { name := "1" }) [] (List.replicate n '1') [] :=
    ⟨Keymap.lawful_reached _ _, hg ▸ (Keymap.find?_eq_some hb).1, rfl, by rw [hg]; rfl, ⟨rfl, rfl⟩,
      by rw [hk]; decide, by decide, hones, rfl, typable⟩
  have h := typing.too_long hc (by simpa using hlimit)
  simpa [hd, typed, fresh] using h

end Session
end ModalEditing
