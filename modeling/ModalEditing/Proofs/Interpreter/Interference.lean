import ModalEditing.Proofs.Interpreter.Announcement

namespace ModalEditing

-- whatever is done to a state, a turn or a session can be done with other registers

namespace State
variable {s : State} {r : Bank}

def holding (s : State) (r : Bank) : State := { s with registers := r }

theorem find_holding (s : State) (r : Bank) (name : String) :
    (s.holding r).find name = ((s.find name).1.holding r, (s.find name).2) := by
  unfold find
  cases Direction.ofSearch? name <;> rfl

theorem follow_holding (s : State) (r : Bank) (name? : Option String) :
    (s.holding r).follow name? = (s.follow name?).map (holding · r) := by
  cases name? with
  | none => rfl
  | some name =>
    simp only [follow]
    split
    · rfl
    · cases Mode.parse name <;> rfl

theorem perform_holding (s : State) (r : Bank) (b : Binding) (n : Int) :
    (s.holding r).perform b n = ((s.perform b n).1.holding r, (s.perform b n).2) := by
  have hreset : (s.holding r).resetPending = s.resetPending.holding r := rfl
  cases hk : b.kind with
  | motion => simp only [perform, hk, hreset]; rfl
  | search => simp only [perform, hk, hreset, find_holding]
  | modeChange =>
    simp only [perform, hk, hreset, follow_holding]
    cases s.resetPending.follow b.switchTo <;> rfl
  | edit =>
    simp only [perform, hk, hreset, follow_holding]
    cases s.resetPending.follow b.switchTo <;> rfl

theorem resolve_holding (s : State) (r : Bank) (b : Binding) :
    (s.holding r).resolve b = ((s.resolve b).1.holding r, (s.resolve b).2) := by
  have hnumber : (s.holding r).number = s.number := rfl
  unfold resolve
  cases b.counted with
  | false => exact s.perform_holding r b 1
  | true =>
    simp only [hnumber, if_true]
    cases s.number with
    | error e => rfl
    | ok n => exact s.perform_holding r b n

theorem readToken_holding (s : State) (r : Bank) (t : Keymap) (g : Group) (token : String) :
    (s.holding r).readToken t g token
      = ((s.readToken t g token).1.holding r, (s.readToken t g token).2) := by
  have resolve (b? : Option Binding) :
      (s.holding r).resolve? b? = ((s.resolve? b?).1.holding r, (s.resolve? b?).2) := by
    cases b? with
    | none => rfl
    | some b => exact s.resolve_holding r b
  have hcounts : (s.holding r).countsDigit g token = s.countsDigit g token := rfl
  have hleader : (s.holding r).leader = s.leader := rfl
  simp only [readToken, hcounts, hleader]
  split_ifs
  · rfl
  · exact resolve _
  · exact resolve _
  · rfl
  · exact resolve _

theorem readKey_holding (s : State) (r : Bank) (t : Keymap) (k : Key) :
    (s.holding r).readKey t k = ((s.readKey t k).1.holding r, (s.readKey t k).2) := by
  have hmode : (s.holding r).mode = s.mode := rfl
  simp only [readKey, hmode]
  split_ifs
  · rfl
  · rfl
  · cases s.mode.group? with
    | none => rfl
    | some g => exact s.readToken_holding r t g k.token

end State

def Event.holding (r : Bank) : Event → Event
  | .state s => .state (s.holding r)
  | .action a => .action a
  | .mode m => .mode m
  | .enabled b => .enabled b

def Notice.holding (r : Bank) : Notice → Notice
  | .event e => .event (e.holding r)
  | .report p => .report p

namespace Turn
variable {r : Bank}

def holding (t : Turn) (r : Bank) : Turn :=
  ⟨t.state.holding r, t.moments.map fun m => ⟨m.notice.holding r, m.state.holding r⟩⟩

theorem tell_holding (t : Turn) (r : Bank) (ns : List Notice) :
    (t.tell ns).holding r = (t.holding r).tell (ns.map (Notice.holding r)) := by
  simp [holding, tell]

theorem tell_report_holding (t : Turn) (r : Bank) (p : Report) :
    (t.tell [.report p]).holding r = (t.holding r).tell [.report p] := t.tell_holding r [.report p]

theorem tell_action_holding (t : Turn) (r : Bank) (a : Action) :
    (t.tell [.event (.action a)]).holding r = (t.holding r).tell [.event (.action a)] :=
  t.tell_holding r [.event (.action a)]

theorem become_holding (t : Turn) (r : Bank) (s : State) :
    (t.become s).holding r = (t.holding r).become (s.holding r) := by
  -- No state is among the changes told.
  have hchanges : (t.state.changes s).map (Notice.holding r) = t.state.changes s := by
    unfold State.changes
    split_ifs <;> rfl
  rw [become, tell_holding, hchanges]
  rfl

theorem publish_holding (t : Turn) (r : Bank) (before : State) :
    (t.publish before).holding r = (t.holding r).publish (before.holding r) := by
  have hface : (t.holding r).state.face = (before.holding r).face ↔ t.state.face = before.face :=
    Iff.rfl
  simp only [publish, hface]
  split_ifs
  · rfl
  · exact t.tell_holding r _

theorem reports_holding (t : Turn) (r : Bank) : (t.holding r).reports = t.reports := by
  simp only [reports, holding, List.filterMap_map]
  apply List.filterMap_congr
  rintro ⟨n, s⟩ -
  cases n <;> rfl

theorem events_holding (t : Turn) (r : Bank) :
    (t.holding r).events = t.events.map (Event.holding r) := by
  simp only [events_eq, holding, List.filterMap_map, List.map_filterMap]
  apply List.filterMap_congr
  rintro ⟨n, s⟩ -
  cases n <;> rfl

/-- The events of a turn but for the states told. -/
def tidings (t : Turn) : List Event := t.events.filter (·.topic ≠ .state)

theorem tidings_holding (t : Turn) (r : Bank) : (t.holding r).tidings = t.tidings := by
  rw [tidings, tidings, events_holding]
  induction t.events with
  | nil => rfl
  | cons e es ih => cases e <;> simpa [Event.holding, Event.topic] using ih

end Turn

namespace State

theorem handle_holding (s : State) (r : Bank) (t : Keymap) (k : Key) :
    (s.holding r).handle t k = ((s.handle t k).1.holding r, (s.handle t k).2) := by
  have henabled : (s.holding r).enabled = s.enabled := rfl
  have hspan : (s.holding r).keySpan k = s.keySpan k := rfl
  have hstart : (⟨s.holding r, []⟩ : Turn) = Turn.holding ⟨s, []⟩ r := rfl
  simp only [handle, henabled, hspan, readKey_holding, hstart]
  split_ifs
  · rfl
  · rcases s.readKey t k with ⟨s', e | a⟩
    · simp only [Turn.tell_report_holding, Turn.become_holding]
    · simp only [Turn.publish_holding]
      cases a.isNone with
      | true => simp only [if_true, Turn.tell_report_holding, Turn.become_holding]
      | false =>
        simp only [Bool.false_eq_true, if_false, Turn.tell_action_holding,
          Turn.tell_report_holding, Turn.become_holding]

/-- Only a text that is put there is about the registers. -/
theorem control_holding (s : State) (r : Bank) {c : Control} (hc : ∀ text, c ≠ .yank text) :
    (s.holding r).control c = (s.control c).holding r := by
  have become_publish (s' : State) :
      (Turn.become ⟨s.holding r, []⟩ (s'.holding r)).publish (s.holding r)
        = ((Turn.become ⟨s, []⟩ s').publish s).holding r := by
    rw [Turn.publish_holding, Turn.become_holding]
    rfl
  have setEnabled (b : Bool) : (s.holding r).setEnabled b = (s.setEnabled b).holding r := by
    have hturn : Turn.become ⟨s.holding r, []⟩ { s.holding r with enabled := b }
        = (Turn.become ⟨s, []⟩ { s with enabled := b }).holding r := by
      rw [Turn.become_holding]
      rfl
    cases b with
    | false =>
      simp only [State.setEnabled, hturn, Turn.publish_holding, Turn.become_holding]
      rfl
    | true =>
      simp only [State.setEnabled, hturn, Turn.publish_holding, Turn.become_holding]
      rfl
  cases c with
  | setMode m => exact become_publish (s.switch m)
  | enable => exact setEnabled true
  | disable => exact setEnabled false
  | toggle => exact setEnabled (!s.enabled)
  | yank text => exact absurd rfl (hc text)
  | pattern p => exact become_publish (s.setPattern p)

end State

namespace Session
variable {β : Type} {f : Session → Call → List β}

def holding (s : Session) (r : Bank) : Session := ⟨s.state.holding r, s.keymap⟩

@[simp] theorem holding_registers (s : Session) : s.holding s.state.registers = s := rfl

@[simp] theorem holding_holding (s : Session) (r r' : Bank) :
    (s.holding r).holding r' = s.holding r' := rfl

/-- The text that a call puts into the unnamed register. -/
def Call.text? : Call → Option Text
  | .control (.yank text) => some text
  | .key _ | .control _ | .modeNamed _ | .edit _ => none

/-- What a key yields, or why it fails. -/
def replies (s : Session) : Call → List (Except Fault Action)
  | .key k => [(s.state.handle s.keymap k).2]
  | .control _ | .modeNamed _ | .edit _ => []

def others (cs : List Call) : List Call := cs.filter (·.text?.isNone)

def texts (cs : List Call) : List Text := cs.filterMap Call.text?

theorem turn_holding (s : Session) (r : Bank) {c : Call} (hc : c.text? = none) :
    (s.holding r).turn c = (s.turn c).holding r := by
  cases c with
  | key k => exact congrArg Prod.fst (s.state.handle_holding r s.keymap k)
  | control c =>
    refine s.state.control_holding r fun text ht => ?_
    rw [ht] at hc
    cases hc
  | modeNamed name =>
    simp only [turn]
    cases Mode.parse name with
    | error e => rfl
    | ok m => exact s.state.control_holding r (c := .setMode m) (fun _ h => by cases h)
  | edit e => rfl

theorem replies_holding (s : Session) (r : Bank) (c : Call) :
    (s.holding r).replies c = s.replies c := by
  cases c with
  | key k => exact congrArg (fun p => [p.2]) (s.state.handle_holding r s.keymap k)
  | control c => rfl
  | modeNamed name => rfl
  | edit e => rfl

theorem step_holding (s : Session) (r : Bank) {c : Call} (hc : c.text? = none) :
    (s.holding r).step c = (s.step c).holding r := by
  have hkeymap : (s.holding r).keymapAfter c = s.keymapAfter c := by
    cases c <;> rfl
  simp only [step, turn_holding s r hc, hkeymap]
  rfl

/-- A call that puts no text there leaves the registers alone. -/
theorem registers_step_of_none (s : Session) {c : Call} (hc : c.text? = none) :
    (s.step c).state.registers = s.state.registers := by
  have hstep := s.step_holding s.state.registers hc
  rw [holding_registers] at hstep
  rw [hstep]
  rfl

/-- A call that puts a text there does nothing else, and tells of nothing but the state. -/
theorem step_of_text (s : Session) {c : Call} {text : Text} (hc : c.text? = some text) :
    s.step c = s.holding (s.state.registers.set Bank.unnamed text) ∧ s.replies c = [] ∧
      (s.turn c).tidings = [] ∧ (s.turn c).reports = [] := by
  obtain rfl : c = .control (.yank text) := by
    cases c with
    | control c =>
      cases c with
      | yank text' =>
        obtain rfl : text' = text := Option.some.inj hc
        rfl
      | _ => cases hc
    | _ => cases hc
  exact ⟨rfl, rfl, rfl, rfl⟩

theorem mem_others {c : Call} {cs : List Call} (h : c ∈ others cs) : c.text? = none :=
  Option.isNone_iff_eq_none.mp (List.mem_filter.mp h).2

theorem others_cons_of_none {c : Call} (hc : c.text? = none) (cs : List Call) :
    others (c :: cs) = c :: others cs := by simp [others, hc]

theorem others_cons_of_some {c : Call} {text : Text} (hc : c.text? = some text) (cs : List Call) :
    others (c :: cs) = others cs := by simp [others, hc]

theorem run_holding {cs : List Call} (h : ∀ c ∈ cs, c.text? = none) (s : Session) (r : Bank) :
    (s.holding r).run cs = (s.run cs).holding r := by
  induction cs generalizing s with
  | nil => rfl
  | cons c cs ih =>
    rw [run_cons, run_cons, step_holding s r (h c List.mem_cons_self)]
    exact ih (fun c hc => h c (List.mem_cons_of_mem _ hc)) (s.step c)

theorem gather_holding (hf : ∀ s r c, c.text? = none → f (holding s r) c = f s c) {cs : List Call}
    (h : ∀ c ∈ cs, c.text? = none) (s : Session) (r : Bank) :
    (s.holding r).gather f cs = s.gather f cs := by
  induction cs generalizing s with
  | nil => rfl
  | cons c cs ih =>
    have hc := h c List.mem_cons_self
    rw [gather, gather, hf s r c hc, step_holding s r hc,
      ih (fun c hc => h c (List.mem_cons_of_mem _ hc)) (s.step c)]

/-- A run is the run of its other calls, with the registers that its texts leave. -/
theorem run_eq (s : Session) (cs : List Call) :
    s.run cs = (s.run (others cs)).holding
      ((texts cs).foldl (fun r text => r.set Bank.unnamed text) s.state.registers) := by
  induction cs generalizing s with
  | nil => rfl
  | cons c cs ih =>
    cases hc : c.text? with
    | none =>
      have htexts : texts (c :: cs) = texts cs := by simp [texts, hc]
      rw [run_cons, ih, registers_step_of_none s hc, others_cons_of_none hc, htexts, run_cons]
    | some text =>
      have htexts : texts (c :: cs) = text :: texts cs := by simp [texts, hc]
      rw [run_cons, ih, (step_of_text s hc).1, run_holding (fun _ => mem_others), holding_holding,
        others_cons_of_some hc, htexts]
      rfl

/-- What the texts have no part in is what the other calls bring. -/
theorem gather_others (hf : ∀ s r c, c.text? = none → f (holding s r) c = f s c)
    (hnil : ∀ s c text, c.text? = some text → f s c = []) (s : Session) (cs : List Call) :
    s.gather f cs = s.gather f (others cs) := by
  induction cs generalizing s with
  | nil => rfl
  | cons c cs ih =>
    cases hc : c.text? with
    | none => rw [others_cons_of_none hc, gather, gather, ih]
    | some text =>
      rw [gather, hnil s c text hc, List.nil_append, ih, (step_of_text s hc).1,
        gather_holding hf (fun _ => mem_others), others_cons_of_some hc]

/-- The events that the calls of a run tell, in order, but for the states among them. -/
theorem tidings_told (s : Session) (cs : List Call) :
    (s.told cs).filter (·.topic ≠ .state) = s.gather (fun s c => (s.turn c).tidings) cs := by
  induction cs generalizing s with
  | nil => rfl
  | cons c cs ih =>
    have hcs := ih (s.step c)
    simp only [told] at hcs
    rw [told, gather, List.filter_append, hcs]
    rfl

/-- Two runs of a session that make the same calls and put the same texts into the register, with the
texts in any places between the calls, are the same to everyone: each key yields the same action or
fails in the same way, the same actions, modes and flags are told in the same order, the journal reads
the same, and the sessions end alike, registers included. Sessions have no observers: one that raises on
what is in a register is left out. -/
theorem texts_do_not_interfere (s : Session) {cs cs' : List Call}
    (hcalls : others cs = others cs') (htexts : texts cs = texts cs') :
    s.gather replies cs = s.gather replies cs' ∧
    (s.told cs).filter (·.topic ≠ .state) = (s.told cs').filter (·.topic ≠ .state) ∧
    s.gather (fun s c => (s.turn c).reports) cs = s.gather (fun s c => (s.turn c).reports) cs' ∧
    s.run cs = s.run cs' := by
  have hreplies := gather_others (f := replies) (fun s r c _ => s.replies_holding r c)
    (fun s c _ hc => (s.step_of_text hc).2.1) s
  have htidings := gather_others (f := fun s c => (s.turn c).tidings)
    (fun s r c hc => by rw [s.turn_holding r hc, Turn.tidings_holding])
    (fun s c _ hc => (s.step_of_text hc).2.2.1) s
  have hreports := gather_others (f := fun s c => (s.turn c).reports)
    (fun s r c hc => by rw [s.turn_holding r hc, Turn.reports_holding])
    (fun s c _ hc => (s.step_of_text hc).2.2.2) s
  refine ⟨?_, ?_, ?_, ?_⟩
  · rw [hreplies cs, hreplies cs', hcalls]
  · rw [tidings_told, tidings_told, htidings cs, htidings cs', hcalls]
  · rw [hreports cs, hreports cs', hcalls]
  · rw [s.run_eq cs, s.run_eq cs', hcalls, htexts]

/-- Two texts between and behind the keys of a command do what they do before them. -/
theorem texts_around_delete_line :
    let s := fresh true .builtIn
    let d : Call := .key { name := "d" }
    let put (text : Text) : Call := .control (.yank text)
    let cs := [d, put ['x'], d, put ['y']]
    let cs' := [put ['x'], put ['y'], d, d]
    others cs = others cs' ∧ texts cs = texts cs' ∧ s.gather replies cs = s.gather replies cs' ∧
      s.run cs = s.run cs' ∧ (s.run cs).state.unnamed = ['y'] := by
  intro s d put cs cs'
  have hcalls : others cs = others cs' := rfl
  have htexts : texts cs = texts cs' := rfl
  obtain ⟨hreplies, -, -, hrun⟩ := texts_do_not_interfere s hcalls htexts
  exact ⟨hcalls, htexts, hreplies, hrun, by decide +kernel⟩

end Session
end ModalEditing
