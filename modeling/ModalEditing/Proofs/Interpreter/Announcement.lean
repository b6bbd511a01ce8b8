import ModalEditing.Editor
import ModalEditing.Proofs.Interpreter.Memory

namespace ModalEditing

namespace Event

def state? : Event → Option State
  | .state s => some s
  | _ => none

def mode? : Event → Option Mode
  | .mode m => some m
  | _ => none

def enabled? : Event → Option Bool
  | .enabled b => some b
  | _ => none

end Event

def Notice.event? : Notice → Option Event
  | .event e => some e
  | .report _ => none

namespace State
variable {s s' : State}

def news (old new : State) : List Event :=
  (if old.enabled = new.enabled then [] else [.enabled new.enabled]) ++
    (if old.mode = new.mode then [] else [.mode new.mode])

/-- The events of a call that leads from `s` to `s'`: the action is among them if it is one, and the
state if it is `told`. -/
def announcement (s s' : State) (action? : Option Action) (told : Bool) : List Event :=
  s.news s' ++ action?.toList.map .action ++ if told then [.state s'] else []

def differs (old new : State) : Bool := decide (new.face ≠ old.face)

theorem differs_eq_false (h : s.differs s' = false) : s'.face = s.face :=
  not_not.mp (of_decide_eq_false h)

theorem announcement_none (s s' : State) (told : Bool) :
    s.announcement s' none told = s.news s' ++ if told then [.state s'] else [] := by
  rw [announcement, Option.toList_none, List.map_nil, List.append_nil]

theorem announcement_some (s s' : State) (a : Action) (told : Bool) :
    s.announcement s' (some a) told = s.news s' ++ [.action a] ++ if told then [.state s'] else [] :=
  rfl

theorem news_self (s : State) : s.news s = [] := by simp [news]

theorem changes_events (old new : State) :
    (old.changes new).filterMap Notice.event? = old.news new := by
  unfold changes news
  split_ifs <;> rfl

theorem topics_nodup (s s' : State) (action? : Option Action) (told : Bool) :
    ((s.announcement s' action? told).map Event.topic).Nodup := by
  unfold announcement news
  cases action? <;> split_ifs <;> simp [Event.topic]

theorem modes_announcement (s s' : State) (action? : Option Action) (told : Bool) :
    (s.announcement s' action? told).filterMap Event.mode?
      = if s.mode = s'.mode then [] else [s'.mode] := by
  unfold announcement news
  cases action? <;> split_ifs <;> rfl

theorem enabled_announcement (s s' : State) (action? : Option Action) (told : Bool) :
    (s.announcement s' action? told).filterMap Event.enabled?
      = if s.enabled = s'.enabled then [] else [s'.enabled] := by
  unfold announcement news
  cases action? <;> split_ifs <;> rfl

theorem states_announcement (s s' : State) (action? : Option Action) (told : Bool) :
    (s.announcement s' action? told).filterMap Event.state? = if told then [s'] else [] := by
  unfold announcement news
  cases action? <;> split_ifs <;> rfl

theorem mode_mem_announcement {action? : Option Action} {told : Bool} {m : Mode}
    (h : .mode m ∈ s.announcement s' action? told) : m ≠ s.mode := by
  have hm : m ∈ (s.announcement s' action? told).filterMap Event.mode? :=
    List.mem_filterMap.mpr ⟨.mode m, h, rfl⟩
  rw [modes_announcement] at hm
  split_ifs at hm with he
  · exact nomatch hm
  · rw [List.mem_singleton.mp hm]
    exact Ne.symm he

theorem enabled_mem_announcement {action? : Option Action} {told : Bool} {b : Bool}
    (h : .enabled b ∈ s.announcement s' action? told) : b ≠ s.enabled := by
  have hb : b ∈ (s.announcement s' action? told).filterMap Event.enabled? :=
    List.mem_filterMap.mpr ⟨.enabled b, h, rfl⟩
  rw [enabled_announcement] at hb
  split_ifs at hb with he
  · exact nomatch hb
  · rw [List.mem_singleton.mp hb]
    exact Ne.symm he

/-- A state that is told is told last. -/
theorem state_mem_announcement {action? : Option Action} {told : Bool} {p : State}
    (h : .state p ∈ s.announcement s' action? told) :
    told = true ∧ (s.announcement s' action? told).getLast? = some (.state p) := by
  have hp : p ∈ (s.announcement s' action? told).filterMap Event.state? :=
    List.mem_filterMap.mpr ⟨.state p, h, rfl⟩
  rw [states_announcement] at hp
  split_ifs at hp with ht
  · rw [List.mem_singleton.mp hp, ht]
    exact ⟨rfl, List.getLast?_concat⟩
  · exact nomatch hp

theorem latest?_mode_announcement (s s' : State) (action? : Option Action) (told : Bool) :
    (latest? Event.mode? (s.announcement s' action? told)).or (some s.mode) = some s'.mode := by
  rw [latest?, modes_announcement]
  split_ifs with hm
  · exact congrArg some hm
  · rfl

theorem latest?_enabled_announcement (s s' : State) (action? : Option Action) (told : Bool) :
    (latest? Event.enabled? (s.announcement s' action? told)).or (some s.enabled)
      = some s'.enabled := by
  rw [latest?, enabled_announcement]
  split_ifs with he
  · exact congrArg some he
  · rfl

theorem latest?_state_announcement (s s' : State) (action? : Option Action) (told : Bool) :
    latest? Event.state? (s.announcement s' action? told) = if told then some s' else none := by
  rw [latest?, states_announcement]
  split_ifs <;> rfl

end State

namespace Turn
variable {t : Turn}

theorem events_eq (t : Turn) : t.events = t.moments.filterMap fun m => m.notice.event? := rfl

theorem events_start (s : State) : events ⟨s, []⟩ = [] := rfl

theorem events_tell (t : Turn) (ns : List Notice) :
    (t.tell ns).events = t.events ++ ns.filterMap Notice.event? := by
  simp only [events_eq, tell, List.filterMap_append, List.filterMap_map]
  rfl

theorem events_report (t : Turn) (r : Report) : (t.tell [.report r]).events = t.events := by
  rw [events_tell]
  exact List.append_nil _

theorem events_event (t : Turn) (e : Event) : (t.tell [.event e]).events = t.events ++ [e] :=
  events_tell t [.event e]

theorem events_become (t : Turn) (s : State) : (t.become s).events = t.events ++ t.state.news s := by
  rw [become, events_tell, State.changes_events]
  rfl

theorem events_publish (t : Turn) (before : State) :
    (t.publish before).events
      = t.events ++ if before.differs t.state then [.state t.state] else [] := by
  unfold publish State.differs
  by_cases h : t.state.face = before.face
  · simp [h]
  · simp [h, events_event]

/-- The state told is the state at the time, whenever one is told. -/
def Candid (t : Turn) : Prop := ∀ m ∈ t.moments, ∀ p, m.notice = .event (.state p) → m.state = p

theorem candid_start (s : State) : Candid ⟨s, []⟩ := by
  intro m hm
  exact absurd hm List.not_mem_nil

theorem Candid.tell (h : t.Candid) {ns : List Notice}
    (hn : ∀ p, .event (.state p) ∈ ns → p = t.state) : (t.tell ns).Candid := by
  intro m hm p hp
  rcases List.mem_append.mp hm with hm | hm
  · exact h m hm p hp
  · obtain ⟨n, hmem, rfl⟩ := List.mem_map.mp hm
    obtain rfl : n = .event (.state p) := hp
    exact (hn p hmem).symm

theorem Candid.become (h : t.Candid) (s : State) : (t.become s).Candid := by
  refine tell (t := { t with state := s }) h fun p hp => ?_
  exfalso
  unfold State.changes at hp
  split_ifs at hp <;> simp at hp

theorem Candid.publish (h : t.Candid) (before : State) : (t.publish before).Candid := by
  unfold Turn.publish
  split
  · exact h
  · refine h.tell fun p hp => ?_
    simpa using hp

/-- The texts that moments put on the status line are those of the states told. -/
theorem Candid.statuses (h : t.Candid) :
    latest? (fun m => Editor.status? (.moment m)) t.moments
      = (latest? Event.state? t.events).map State.status := by
  have hm : ∀ m ∈ t.moments, Editor.status? (.moment m)
      = (m.notice.event?.bind Event.state?).map State.status := by
    rintro ⟨n, s⟩ hmem
    cases n with
    | report r => rfl
    | event e =>
      cases e with
      | state p =>
        obtain rfl : s = p := h _ hmem p rfl
        rfl
      | _ => rfl
  rw [latest?, List.filterMap_congr hm, latest?, events_eq, List.filterMap_filterMap,
    ← List.getLast?_map, List.map_filterMap]

end Turn

namespace State
variable {s s' : State} {t : Keymap} {k : Key} {a : Action}

/-- A call that turns on or off and then enters a mode tells of both as if done at once. -/
theorem news_trans {s₁ s₂ : State} (hm : s₁.mode = s.mode) (he : s₂.enabled = s₁.enabled) :
    s.news s₁ ++ s₁.news s₂ = s.news s₂ := by
  simp [news, hm, he]

theorem events_handle_of_ok (he : s.enabled = true) (ha : (s.readKey t k).2 = .ok a) :
    (s.handle t k).1.events = s.announcement (s.readKey t k).1 (if a.isNone then none else some a)
      (s.differs (s.readKey t k).1) := by
  cases hr : s.readKey t k with
  | mk s' outcome =>
    obtain rfl : outcome = .ok a := by rwa [hr] at ha
    simp only [handle, he, hr, Bool.not_true, Bool.false_eq_true, if_false]
    cases hn : a.isNone with
    | true =>
      rw [if_pos rfl, if_pos rfl, announcement_none, Turn.events_publish, Turn.events_report,
        Turn.events_become, Turn.events_report]
      rfl
    | false =>
      rw [if_neg Bool.false_ne_true, if_neg Bool.false_ne_true, announcement_some,
        Turn.events_publish, Turn.events_event, Turn.events_report, Turn.events_become,
        Turn.events_report]
      rfl

theorem events_handle_of_error (he : s.enabled = true) {e : Fault}
    (ha : (s.readKey t k).2 = .error e) :
    (s.handle t k).1.events = s.announcement (s.readKey t k).1 none false := by
  cases hr : s.readKey t k with
  | mk s' outcome =>
    obtain rfl : outcome = .error e := by rwa [hr] at ha
    simp [handle, he, hr, announcement, Turn.events_report, Turn.events_become, Turn.events_start]

theorem candid_handle (s : State) (t : Keymap) (k : Key) : (s.handle t k).1.Candid := by
  have report (r : Report) (now : State) : ∀ p, Notice.event (.state p) ∈ [.report r] → p = now := by
    simp
  cases he : s.enabled with
  | false =>
    rw [handle_of_disabled he]
    exact Turn.candid_start s
  | true =>
    cases hr : s.readKey t k with
    | mk s' outcome =>
      have hread := ((Turn.candid_start s).tell (report (.enter (s.keySpan k)) s)).become s'
      cases outcome with
      | error e =>
        simp only [handle, he, hr, Bool.not_true, Bool.false_eq_true, if_false]
        exact hread.tell (report _ s')
      | ok a =>
        simp only [handle, he, hr, Bool.not_true, Bool.false_eq_true, if_false]
        apply Turn.Candid.publish
        split
        · exact hread.tell (report _ s')
        · exact (hread.tell (report _ s')).tell (by simp)

theorem events_become_publish (s s' : State) :
    ((Turn.become ⟨s, []⟩ s').publish s).events = s.announcement s' none (s.differs s') := by
  rw [announcement_none, Turn.events_publish, Turn.events_become]
  rfl

theorem events_setEnabled (s : State) (b : Bool) :
    (s.setEnabled b).events
      = s.announcement (s.setEnabled b).state none (s.differs (s.setEnabled b).state) := by
  have hnews : s.news { s with enabled := b } ++
      ({ s with enabled := b } : State).news (s.setEnabled b).state
        = s.news (s.setEnabled b).state := by
    apply news_trans
    · rfl
    · cases b <;> simp [setEnabled, switch, resetPending]
  have hstate : (s.setEnabled b).state = if b then ({ s with enabled := b } : State).switch .normal
      else ({ s with enabled := b } : State).resetPending := by simp [setEnabled]
  rw [announcement_none, ← hnews, hstate, setEnabled, Turn.events_publish, Turn.events_become,
    Turn.events_become]
  rfl

theorem events_control (s : State) (c : Control) :
    ∃ told, (s.control c).events = s.announcement (s.control c).state none told ∧
      (told = true → (s.control c).state.face ≠ s.face ∨ ∃ text, c = .yank text) ∧
      (told = false → (s.control c).state.face = s.face) := by
  have publishes (h : (s.control c).events
      = s.announcement (s.control c).state none (s.differs (s.control c).state)) :
      ∃ told, (s.control c).events = s.announcement (s.control c).state none told ∧
        (told = true → (s.control c).state.face ≠ s.face ∨ ∃ text, c = .yank text) ∧
        (told = false → (s.control c).state.face = s.face) :=
    ⟨_, h, fun ht => .inl (of_decide_eq_true ht), differs_eq_false⟩
  cases c with
  | yank text =>
    refine ⟨true, ?_, fun _ => .inr ⟨text, rfl⟩, nofun⟩
    have hnews : s.news (s.yank text) = [] := by simp [news, yank]
    simp [control, setYank, announcement, hnews, Turn.events_event, Turn.events_start]
  | setMode m =>
    have hstate : (s.setMode m).state = s.switch m := by simp [setMode]
    exact publishes (hstate ▸ events_become_publish s (s.switch m))
  | pattern p =>
    have hstate : (s.setSearchPattern p).state = s.setPattern p := by simp [setSearchPattern]
    exact publishes (hstate ▸ events_become_publish s (s.setPattern p))
  | enable => exact publishes (s.events_setEnabled true)
  | disable => exact publishes (s.events_setEnabled false)
  | toggle => exact publishes (s.events_setEnabled (!s.enabled))

theorem candid_control (s : State) (c : Control) : (s.control c).Candid := by
  cases c with
  | setMode m => exact ((Turn.candid_start s).become _).publish s
  | enable => exact (((Turn.candid_start s).become _).become _).publish s
  | disable => exact (((Turn.candid_start s).become _).become _).publish s
  | toggle => exact (((Turn.candid_start s).become _).become _).publish s
  | yank text =>
    refine (Turn.candid_start (s.yank text)).tell fun p hp => ?_
    simpa using hp
  | pattern p => exact ((Turn.candid_start s).become _).publish s

theorem eq_of_face (hf : s.face = s'.face) (hr : s.registers = s'.registers) : s = s' := by
  cases s
  cases s'
  simp_all [face]

end State

namespace Session
variable {s : Session}

/-- A key that is handled yields an action. Other calls that fail change nothing. -/
def Returns (s : Session) (c : Call) : Prop :=
  ∀ k, c = .key k → ∃ a, (s.state.handle s.keymap k).2 = .ok a

/-- What a call tells is an announcement, in which the state is told only after another than a text put
into the register has changed it, and is not left out after such a change. -/
theorem announces (s : Session) (c : Call) :
    ∃ action? told,
      (s.turn c).events = s.state.announcement (s.step c).state action? told ∧
      (told = true → (s.step c).state.face ≠ s.state.face ∨ ∃ text, c = .control (.yank text)) ∧
      (told = false → s.Returns c → (s.step c).state.face = s.state.face) := by
  have silent : (Turn.events ⟨s.state, []⟩) = s.state.announcement s.state none false := by
    simp [Turn.events_start, State.announcement, State.news_self]
  cases c with
  | key k =>
    simp only [step, turn]
    cases he : s.state.enabled with
    | false =>
      rw [State.handle_of_disabled he]
      exact ⟨none, false, silent, fun h => absurd h Bool.false_ne_true, fun _ _ => rfl⟩
    | true =>
      obtain ⟨hs, ho⟩ := State.handle_of_enabled he s.keymap k
      rw [hs]
      cases ha : (s.state.readKey s.keymap k).2 with
      | ok a =>
        exact ⟨_, _, State.events_handle_of_ok he ha, fun ht => .inl (of_decide_eq_true ht),
          fun ht _ => State.differs_eq_false ht⟩
      | error e =>
        refine ⟨none, false, State.events_handle_of_error he ha,
          fun h => absurd h Bool.false_ne_true, fun _ hr => ?_⟩
        obtain ⟨a, hok⟩ := hr k rfl
        rw [ho, ha] at hok
        cases hok
  | control c =>
    obtain ⟨told, he, htold, hsame⟩ := s.state.events_control c
    refine ⟨none, told, he, fun ht => ?_, fun ht _ => hsame ht⟩
    rcases htold ht with hf | ⟨text, rfl⟩
    · exact .inl hf
    · exact .inr ⟨text, rfl⟩
  | modeNamed name =>
    simp only [step, turn]
    cases Mode.parse name with
    | error e => exact ⟨none, false, silent, fun h => absurd h Bool.false_ne_true, fun _ _ => rfl⟩
    | ok m =>
      obtain ⟨told, he, htold, hsame⟩ := s.state.events_control (.setMode m)
      refine ⟨none, told, he, fun ht => .inl ?_, fun ht _ => hsame ht⟩
      exact (htold ht).resolve_right (by simp)
  | edit r => exact ⟨none, false, silent, fun h => absurd h Bool.false_ne_true, fun _ _ => rfl⟩

theorem candid_turn (s : Session) (c : Call) : (s.turn c).Candid := by
  cases c with
  | key k => exact s.state.candid_handle s.keymap k
  | control c => exact s.state.candid_control c
  | modeNamed name =>
    simp only [turn]
    cases Mode.parse name with
    | error e => exact Turn.candid_start s.state
    | ok m => exact s.state.candid_control (.setMode m)
  | edit r => exact Turn.candid_start s.state

theorem registers_step (h : s.state.Consistent) {c : Call}
    (hc : ∀ text, c ≠ .control (.yank text)) : (s.step c).state.registers = s.state.registers := by
  cases c with
  | key k => exact (h.keeps s.keymap k).registers
  | control c =>
    simp only [step, turn, State.control_state]
    cases c with
    | yank text => exact absurd rfl (hc text)
    | toggle =>
      simp only [State.steered]
      split <;> rfl
    | _ => rfl
  | modeNamed name =>
    simp only [step, turn]
    cases Mode.parse name with
    | error e => rfl
    | ok m =>
      have hm := congrArg State.registers (State.control_state s.state (.setMode m))
      exact hm
  | edit r => rfl

/-- After a call that returns, the state last told is the state. -/
theorem latest?_state_turn (h : s.state.Consistent) {c : Call} (hr : s.Returns c) :
    (latest? Event.state? (s.turn c).events).or (some s.state) = some (s.step c).state := by
  obtain ⟨action?, told, he, htold, hsame⟩ := s.announces c
  rw [he, State.latest?_state_announcement]
  cases told with
  | true => rfl
  | false =>
    by_cases hy : ∃ text, c = .control (.yank text)
    · -- A text put into the register is always told.
      obtain ⟨text, rfl⟩ := hy
      have hlatest := congrArg (latest? Event.state?) he
      rw [State.latest?_state_announcement] at hlatest
      simp [turn, State.control, State.setYank, Turn.events_tell, Turn.events_start, latest?,
        Notice.event?, Event.state?] at hlatest
    · have hface := hsame rfl hr
      have hreg := registers_step h (c := c) fun text ht => hy ⟨text, ht⟩
      exact congrArg some (State.eq_of_face hface hreg).symm

def told (s : Session) (cs : List Call) : List Event := s.gather (fun s c => (s.turn c).events) cs

/-- The texts that an adapter puts on the status line: one when it is attached, and one for each state
told since. -/
def statuses (s : Session) (cs : List Call) : List String :=
  s.state.status ::
    (s.gather (fun s c => (s.turn c).moments) cs).filterMap fun m => Editor.status? (.moment m)

theorem latest?_status_turn (h : s.state.Consistent) {c : Call} (hr : s.Returns c) :
    (latest? (fun m => Editor.status? (.moment m)) (s.turn c).moments).or (some s.state.status)
      = some (s.step c).state.status := by
  rw [(s.candid_turn c).statuses]
  have hs := congrArg (Option.map State.status) (latest?_state_turn h hr)
  rwa [Option.map_or] at hs

/-- In a run of calls that return, observers are never behind: the state, the mode and the flag last told
are those at hand, and so is the status line of an adapter attached at any time. One call tells of each
at most once, of the state last and only where it has changed, unless a text was put into the register,
and of the mode and the flag only where they are new. -/
theorem observers_current (enabled : Bool) (t : Keymap) (before since : List Call) :
    let start := fresh enabled t
    let mid := start.run before
    let now := start.run (before ++ since)
    let events := start.told (before ++ since)
    start.Along Returns (before ++ since) →
    (latest? Event.state? events).getD start.state = now.state ∧
    (latest? Event.mode? events).getD .normal = now.state.mode ∧
    (latest? Event.enabled? events).getD enabled = now.state.enabled ∧
    (mid.statuses since).getLast? = some now.state.status ∧
    ∀ c,
      ((now.turn c).events.map Event.topic).Nodup ∧
      (∀ m, .mode m ∈ (now.turn c).events → m ≠ now.state.mode) ∧
      (∀ b, .enabled b ∈ (now.turn c).events → b ≠ now.state.enabled) ∧
      (∀ s, .state s ∈ (now.turn c).events → (now.turn c).events.getLast? = some (.state s)) ∧
      (∀ s, .state s ∈ (now.turn c).events → (∀ text, c ≠ .control (.yank text)) →
        (now.step c).state ≠ now.state) := by
  intro start mid now events h
  have hstart : start.state.Consistent := State.Consistent.fresh enabled
  refine ⟨?_, ?_, ?_, ?_, ?_⟩
  · have hs := latest?_gather (v := some) (fun _ _ hs hr => latest?_state_turn hs hr) hstart h
    rwa [Option.or_some, Option.some.injEq] at hs
  · have hm := latest?_gather (f := fun s c => (s.turn c).events) (v := fun s => some s.mode)
      (fun s c _ _ => by
        obtain ⟨action?, told, he, -⟩ := s.announces c
        rw [he, State.latest?_mode_announcement]) hstart h
    rwa [Option.or_some, Option.some.injEq] at hm
  · have hb := latest?_gather (f := fun s c => (s.turn c).events) (v := fun s => some s.enabled)
      (fun s c _ _ => by
        obtain ⟨action?, told, he, -⟩ := s.announces c
        rw [he, State.latest?_enabled_announcement]) hstart h
    rwa [Option.or_some, Option.some.injEq] at hb
  · -- The adapter starts with the status of the session that it is attached to.
    have hmid : mid.state.Consistent := consistent_run hstart before
    have hs := latest?_gather (v := fun s => some s.status)
      (fun _ _ hs hr => latest?_status_turn hs hr) hmid (along_append.mp h).2
    rw [Option.or_some] at hs
    rw [statuses, List.getLast?_cons]
    rwa [← run_append] at hs
  · intro c
    obtain ⟨action?, told, he, htold, -⟩ := now.announces c
    rw [he]
    refine ⟨State.topics_nodup _ _ _ _, fun m hm => State.mode_mem_announcement hm,
      fun b hb => State.enabled_mem_announcement hb,
      fun s hs => (State.state_mem_announcement hs).2, ?_⟩
    intro s hs hc heq
    rcases htold (State.state_mem_announcement hs).1 with hf | ⟨text, ht⟩
    · exact hf (congrArg State.face heq)
    · exact hc text ht

/-- A selection begun, a text copied by the host, and the selection left again. -/
theorem observers_current_after_visual :
    let start := fresh true .builtIn
    let calls : List Call := [.key { name := "v" }, .control (.yank ['a']), .key { name := "escape" }]
    (latest? Event.state? (start.told calls)).getD start.state = (start.run calls).state ∧
      (start.run calls).state.unnamed = ['a'] ∧ (start.run calls).state.mode = .normal := by
  intro start calls
  let selecting := (start.step (.key { name := "v" })).step (.control (.yank ['a']))
  obtain ⟨hv, hescape, hunnamed, hmode⟩ :
      (start.state.handle start.keymap { name := "v" }).2 = .ok (.modeChange "visual") ∧
      (selecting.state.handle selecting.keymap { name := "escape" }).2
        = .ok (.modeChange "normal") ∧
      (start.run calls).state.unnamed = ['a'] ∧ (start.run calls).state.mode = .normal := by
    decide +kernel
  have h : start.Along Returns calls := by
    refine ⟨?_, nofun, ?_, trivial⟩
    · rintro k ⟨⟩
      exact ⟨_, hv⟩
    · rintro k ⟨⟩
      exact ⟨_, hescape⟩
  exact ⟨(observers_current true .builtIn calls [] (by rwa [List.append_nil])).1, hunnamed, hmode⟩

end Session
end ModalEditing
