import ModalEditing.Proofs.Screen.Settling
import ModalEditing.Proofs.Settings.Nesting

namespace ModalEditing

def Call.types : Call → Bool
  | .type _ => true
  | _ => false

/-- No action types. -/
theorem Action.Asks.not_types {a : Action} {cs : List Call} (h : a.Asks cs) :
    ∀ c ∈ cs, c.types = false := by
  intro c hmem
  rcases h.asked c hmem with hlooks | hedits | ⟨rfl, -⟩ | ⟨rfl, -⟩
  · cases c <;> simp_all [Call.looks, Call.types]
  · cases c <;> simp_all [Call.edits, Call.types]
  · rfl
  · rfl

theorem BindingKind.actionKind_ne_register (k : BindingKind) : k.actionKind ≠ .register := by
  cases k <;> simp [actionKind]

/-- To put the register back leaves the mode as it is. -/
theorem Keymap.target?_of_paste : ∀ g, ∀ b ∈ builtIn.bucket g,
    b.action = "paste-after" ∨ b.action = "paste-before" → b.target? = none := by
  have hall : ∀ g ∈ Group.all, ∀ b ∈ builtIn.bucket g,
      b.action = "paste-after" ∨ b.action = "paste-before" → b.target? = none := by
    decide +kernel
  intro g
  exact hall g g.mem_all

namespace State
variable {s : State} {t : Keymap} {r : State × Except Fault Action} {a : Action}

theorem Answer.kind_ne_register (h : Answer s t r) (ha : r.2 = .ok a) (hn : a.isNone = false) :
    a.kind ≠ .register := by
  cases h with
  | silent _ nothing => exact absurd (nothing a ha) (by simp [hn])
  | left =>
    obtain rfl := Except.ok.inj ha
    simp [Action.modeChange]
  | bound _ _ done =>
    obtain rfl := Except.ok.inj ha
    rw [done.kind]
    exact BindingKind.actionKind_ne_register _

/-- The built-in bindings whose actions may fail stay in their mode. -/
theorem Answer.mode_of_stuck (h : Answer s t r) (ht : t = .builtIn) (ha : r.2 = .ok a) {d : Desk}
    {f : Desk.Failure} (hs : d.Stuck a f) : r.1.mode = s.mode := by
  have hkind : a.kind = .motion ∨ a.kind = .edit ∧
      (a.name = some "paste-after" ∨ a.name = some "paste-before") := by
    cases hs with
    | anchor kind => exact .inl kind
    | copies kind name => exact .inr ⟨kind, name⟩
  cases h with
  | silent mode _ => exact mode
  | left =>
    obtain rfl := Except.ok.inj ha
    simp [Action.modeChange] at hkind
  | @bound g b n s' a' group mem done =>
    obtain rfl : a' = a := Except.ok.inj ha
    have htarget : b.target? = none := by
      rcases hkind with hk | ⟨-, hn⟩
      · rw [done.kind] at hk
        cases hb : b.kind <;> simp_all [Binding.target?, BindingKind.actionKind]
      · rw [done.name, Option.some.injEq, Option.some.injEq] at hn
        rw [ht] at mem
        exact Keymap.target?_of_paste g b mem hn
    have hmode := done.mode
    rw [htarget] at hmode
    exact Mode.name_inj hmode

end State

/-- The text area takes typing just when the interpreter is off or inserts. -/
def Desk.Agrees (d : Desk) : Prop :=
  d.area.readOnly = (d.state.enabled && decide (d.state.mode ≠ .insert))

namespace Editor
variable {e : Editor}

/-- An editor with the built-in bindings between two steps of a screen, whether it is on or off. -/
structure Rests (e : Editor) : Prop where
  table : e.table = .builtIn
  applies : e.applies = true
  fits : e.state.Fits
  sound : e.desk.area.Sound
  outputs : e.desk.outputs = []

theorem Rests.steady (h : e.Rests) (he : e.state.enabled = true) : e.Steady :=
  ⟨h.table, h.applies, h.fits.consistent he, h.sound⟩

theorem Steady.rests (h : e.Steady) : Rests { e with desk.outputs := [] } :=
  ⟨h.table, h.applies, h.consistent.fits, h.sound, rfl⟩

/-- A key that is carried through leaves the text area as the mode has it, and one that fails does not
change the mode. -/
theorem Steady.agrees_press (hs : e.Steady) (h : e.desk.Agrees) (p : Press) :
    (e.press p).1.desk.Agrees := by
  have henabled : (e.answered p).state.enabled = e.state.enabled :=
    (hs.consistent.answer e.table p.toKey).2.1
  have hp := pressed hs.applies hs.consistent p
  generalize e.press p = r at hp ⊢
  cases hp with
  | silent quiet mode nothing result =>
    have hold : e.desk.area.readOnly = (e.state.enabled && decide (e.state.mode ≠ .insert)) := h
    rw [← henabled, ← mode] at hold
    exact hold
  | @carried os a cs d failure quiet outcome acts answer apply applied =>
    obtain ⟨registers, hstate⟩ := applied.state
    have hstate : d.state = { (e.answered p).state with registers := registers } := hstate
    have hreadOnly := applied.readOnly
    simp only at hreadOnly
    have hon : e.state.enabled = true := by
      by_contra hoff
      rw [State.handle_of_disabled (by simpa using hoff)] at outcome
      obtain rfl := Except.ok.inj outcome
      cases acts
    simp only [Desk.Agrees, hstate, henabled, hon, Bool.true_and]
    cases failure with
    | none =>
      have hnone : a.kind ≠ .none := by simpa [Action.isNone] using acts
      rw [hreadOnly, if_pos ⟨rfl, hnone, answer.kind_ne_register rfl acts⟩]
    | some f =>
      -- What is taken is as before, and so is the mode, because a stuck action has no other to enter.
      have hsound : (e.answered p).area.Sound := hs.sound
      have hstuck : (e.answered p).Stuck a f := (Desk.apply_fails_iff hsound).mp (by rw [apply])
      have hmode : (e.answered p).state.mode = e.state.mode :=
        answer.mode_of_stuck hs.table rfl hstuck
      rw [hreadOnly, if_neg (by simp), hmode]
      have hold : e.desk.area.readOnly = (e.state.enabled && decide (e.state.mode ≠ .insert)) := h
      rw [hon, Bool.true_and] at hold
      exact hold

/-- What a key makes of the text area, and that none of it is typing. -/
theorem Steady.calls_press (hs : e.Steady) (p : Press) :
    ∃ cs, (e.press p).1.desk.area.calls = e.desk.area.calls ++ cs ∧ ∀ c ∈ cs, c.types = false := by
  have hp := pressed hs.applies hs.consistent p
  generalize e.press p = r at hp ⊢
  cases hp with
  | silent quiet mode nothing result =>
    exact ⟨[], (List.append_nil _).symm, fun _ hc => absurd hc List.not_mem_nil⟩
  | carried quiet outcome acts answer apply applied =>
    exact ⟨_, applied.calls, applied.asks.not_types⟩

theorem Steady.quiet_press (hs : e.Steady) (ho : e.desk.outputs = []) (p : Press) :
    ∀ o ∈ (e.press p).1.desk.outputs, o.flag? = none := by
  have hp := pressed hs.applies hs.consistent p
  generalize e.press p = r at hp ⊢
  cases hp with
  | silent quiet mode nothing result => simpa [ho] using quiet
  | carried quiet outcome acts answer apply applied => simpa [ho] using quiet

end Editor

namespace Screen
variable {s : Screen} {ds : Store.Depths}

/-- What happens to a screen: a key, a switch of the interpreter, a pattern from the search box, or memory
that leaves other room for copies. -/
inductive Input
  | key (p : Press)
  | toggle
  | submit (value : String)
  | room (r : Option ℕ)

def step (s : Screen) (ds : Store.Depths) : Input → Screen
  | .key p => (s.press ds p).1
  | .toggle => (s.toggle ds).1
  | .submit value => (s.submit ds value).1
  | .room r => { s with editor.desk.room := r }

/-- The settings can be nested as deep at each input as the stack then allows. -/
def run (s : Screen) (is : List (Store.Depths × Input)) : Screen := is.foldl (fun s i => s.step i.1 i.2) s

/-- The text area takes typing just when keys go to it. -/
def Agrees (s : Screen) : Prop := s.editor.desk.Agrees

/-- The input is a toggle that the settings file refuses. -/
def Refuses (s : Screen) (ds : Store.Depths) (i : Input) : Prop := i = .toggle ∧ (s.toggle ds).2 ≠ none

/-- A screen that is set up, between two steps. -/
structure Ready (s : Screen) : Prop where
  mounted : 0 < s.mounted
  rests : s.editor.Rests

theorem enabled_of_wants {key : String} (h : Editor.wants s.state key = true) :
    s.state.enabled = true := by
  unfold Editor.wants at h
  exact (Bool.and_eq_true_iff.mp h).1

/-- A key that is wanted goes to the interpreter. -/
theorem Ready.press_wanted (h : Ready s) (ds : Store.Depths) {p : Press}
    (hw : Editor.wants s.state p.key = true) :
    (s.press ds p).1.editor = { (s.editor.press p).1 with desk.outputs := [] } ∧
      (s.press ds p).1.mounted = s.mounted ∧ (s.press ds p).2 ≠ .ok false := by
  have hquiet := (h.rests.steady (enabled_of_wants hw)).quiet_press h.rests.outputs p
  obtain ⟨s', htake, heditor, -, hmounted⟩ := s.take_of_quiet ds hquiet
  have hwanted : (decide (0 < s.mounted) && Editor.wants s.state p.key) = true := by
    simp [h.mounted, hw]
  cases ho : (s.editor.press p).2 with
  | error f =>
    have hpress : s.press ds p = (s', .error (.editor f)) := by
      simp only [press, if_pos hwanted, htake, ho]
    rw [hpress]
    exact ⟨heditor, hmounted, by simp⟩
  | ok a =>
    have hpress : s.press ds p = (s', .ok true) := by
      simp only [press, if_pos hwanted, htake, ho]
    rw [hpress]
    exact ⟨heditor, hmounted, by simp⟩

/-- Any other key goes to the text area. -/
theorem press_typed {p : Press} (hw : Editor.wants s.state p.key = false) {t : Text}
    (ht : typed? p = some t) : s.press ds p = (s.withArea (·.typeText t), .ok false) := by
  simp [press, hw, ht]

theorem press_passed {p : Press} (hw : Editor.wants s.state p.key = false) (ht : typed? p = none) :
    s.press ds p = (s, .ok false) := by
  simp [press, hw, ht]

theorem quiet_pattern (s : State) (value : String) :
    ∀ o ∈ (s.control (.pattern value)).moments.map Output.moment, o.flag? = none := by
  apply Turn.quiet_of_flags
  obtain ⟨told, hevents, -⟩ := s.events_control (.pattern value)
  have hsame : s.enabled = (s.steered (.pattern value)).enabled := rfl
  rw [hevents, State.enabled_announcement, State.control_state, if_pos hsame]

def leaveSearch (s : Screen) (value : String) : Screen :=
  { s with search.value := value, search.active := false, editor.desk.area := s.area.focus }

/-- A pattern is looked for once the search box is left and the interpreter has stored it. -/
theorem submit_eq (s : Screen) (ds : Store.Depths) (value : String) :
    s.submit ds value = if value = "" || s.mounted = 0 then (s.leaveSearch value, none)
      else match (s.leaveSearch value).control ds (.pattern value) with
        | (s, some e) => (s, some e)
        | (s, none) => ({ s with
            editor.desk := (s.editor.desk.find value s.state.search.direction).1 }, none) := rfl

/-- What a pattern from the search box comes to: the flag and the mode are as before, and the cursor may
have moved. -/
theorem submitted (hs : s.editor.desk.outputs = []) (ds : Store.Depths) (value : String) :
    ∃ search cs, (s.submit ds value).1.editor = { s.editor with
        desk.state.search := search
        desk.area := s.area.obeyAll cs } ∧
      (s.submit ds value).1.mounted = s.mounted := by
  have hleft : (s.leaveSearch value).editor.desk = { s.editor.desk with
      area := s.area.obeyAll [.focus] } := rfl
  rw [submit_eq]
  split
  · exact ⟨s.state.search, [.focus], rfl, rfl⟩
  · have hdesk := control_desk (s.leaveSearch value).editor (.pattern value)
    rw [hleft] at hdesk
    have hquiet : ∀ o ∈ ((s.leaveSearch value).editor.control (.pattern value)).desk.outputs,
        o.flag? = none := by
      rw [hdesk, hs, List.nil_append]
      exact quiet_pattern _ value
    obtain ⟨s₂, htake, heditor, -, hmounted⟩ := (s.leaveSearch value).take_of_quiet ds hquiet
    have hcontrol : (s.leaveSearch value).control ds (.pattern value) = (s₂, none) := htake
    obtain ⟨cs, -, hfind⟩ := s₂.editor.desk.find_desk value s₂.state.search.direction
    have harea : s₂.editor.desk.area = s.area.obeyAll [.focus] := by
      rw [heditor, hdesk]
    simp only [hcontrol, hfind, harea]
    rw [← TextArea.obeyAll_append]
    refine ⟨(s.state.setPattern value).search, [.focus] ++ cs, ?_, hmounted⟩
    simp only [heditor, hdesk, hs]
    rfl

theorem Ready.press (h : Ready s) (ds : Store.Depths) (p : Press) : Ready (s.press ds p).1 := by
  have hr := h.rests
  cases hw : Editor.wants s.state p.key with
  | true =>
    obtain ⟨heditor, hmounted, -⟩ := h.press_wanted ds hw
    have hsteady : (s.editor.press p).1.Steady := (hr.steady (enabled_of_wants hw)).step (.press p)
    refine ⟨hmounted.symm ▸ h.mounted, ?_⟩
    rw [heditor]
    exact hsteady.rests
  | false =>
    cases ht : typed? p with
    | some t =>
      rw [press_typed hw ht]
      exact ⟨h.mounted, hr.table, hr.applies, hr.fits, hr.sound.typeText t, hr.outputs⟩
    | none =>
      rw [press_passed hw ht]
      exact h

theorem Ready.toggle (h : Ready s) (ds : Store.Depths) : Ready (s.toggle ds).1 := by
  have hr := h.rests
  have htoggled := toggled s ds hr.outputs
  generalize s.toggle ds = r at htoggled ⊢
  cases htoggled with
  | refused set editor mounted =>
    refine ⟨mounted.symm ▸ h.mounted, ?_⟩
    rw [editor]
    exact ⟨hr.table, hr.applies, hr.fits, hr.sound, rfl⟩
  | stored set editor mounted =>
    refine ⟨mounted.symm ▸ h.mounted, ?_⟩
    rw [editor]
    have hidle : (s.state.steered .toggle).Idle := by
      simp only [State.steered]
      split
      · exact State.idle_resetPending _
      · exact State.idle_switch _ .normal
    exact ⟨hr.table, hr.applies, hidle.consistent.fits, ⟨hr.sound.cursor, hr.sound.start,
      hr.sound.stop⟩, rfl⟩

theorem Ready.submit (h : Ready s) (ds : Store.Depths) (value : String) :
    Ready (s.submit ds value).1 := by
  have hr := h.rests
  obtain ⟨search, cs, heditor, hmounted⟩ := submitted hr.outputs ds value
  refine ⟨hmounted.symm ▸ h.mounted, ?_⟩
  rw [heditor]
  exact ⟨hr.table, hr.applies, ⟨hr.fits.count, hr.fits.normal_of_digits,
    hr.fits.not_insert_of_leader, hr.fits.idle_of_disabled⟩, hr.sound.obeyAll cs, hr.outputs⟩

/-- Every step leaves the screen ready for the next one, a toggle that is refused included. -/
theorem Ready.step (h : Ready s) (ds : Store.Depths) (i : Input) : Ready (s.step ds i) := by
  cases i with
  | key p => exact h.press ds p
  | toggle => exact h.toggle ds
  | submit value => exact h.submit ds value
  | room r =>
    have hr := h.rests
    exact ⟨h.mounted, hr.table, hr.applies, hr.fits, hr.sound, hr.outputs⟩

theorem Ready.run (h : Ready s) (is : List (Store.Depths × Input)) : Ready (s.run is) := by
  induction is generalizing s with
  | nil => exact h
  | cons i is ih => exact ih (h.step i.1 i.2)

theorem Ready.agrees_press (h : Ready s) (ha : s.Agrees) (ds : Store.Depths) (p : Press) :
    (s.press ds p).1.Agrees := by
  cases hw : Editor.wants s.state p.key with
  | true =>
    obtain ⟨heditor, -, -⟩ := h.press_wanted ds hw
    have hpress := (h.rests.steady (enabled_of_wants hw)).agrees_press ha p
    rw [Agrees, heditor]
    exact hpress
  | false =>
    cases ht : typed? p with
    | some t =>
      rw [press_typed hw ht]
      exact (TextArea.readOnly_obey s.area (.type t)).trans ha
    | none =>
      rw [press_passed hw ht]
      exact ha

/-- A toggle that is refused has changed the flag, while the mode and what is taken are as before. -/
theorem Ready.agrees_toggle_iff (h : Ready s) (ha : s.Agrees) (ds : Store.Depths) :
    (s.toggle ds).1.Agrees ↔ ¬ ((s.toggle ds).2 ≠ none ∧ s.state.mode ≠ .insert) := by
  have hold : s.editor.desk.area.readOnly = (s.state.enabled && decide (s.state.mode ≠ .insert)) := ha
  have htoggled := toggled s ds h.rests.outputs
  generalize s.toggle ds = r at htoggled ⊢
  cases htoggled with
  | refused set editor mounted =>
    have hflag : s.state.flipped.enabled = !s.state.enabled := rfl
    have hmode : s.state.flipped.mode = s.state.mode := rfl
    simp only [Agrees, Desk.Agrees, editor]
    rw [hold, hflag, hmode]
    -- In insert mode it is all the same, for typing is taken whatever the flag.
    by_cases hm : s.state.mode = .insert
    · simp [hm]
    · cases s.state.enabled <;> simp [hm]
  | stored set editor mounted =>
    -- Switched on, it is in normal mode; switched off, every mode takes typing.
    have hnormal : s.state.enabled = false → (s.state.steered .toggle).mode = .normal := by
      intro he
      simp [State.steered, he, State.switch]
    have hflag := s.state.enabled_steered_toggle
    simp only [Agrees, Desk.Agrees, editor]
    rw [hflag]
    cases he : s.state.enabled with
    | true => simp
    | false => simp [hnormal he]

theorem Ready.agrees_submit (h : Ready s) (ha : s.Agrees) (ds : Store.Depths) (value : String) :
    (s.submit ds value).1.Agrees := by
  obtain ⟨search, cs, heditor, -⟩ := submitted h.rests.outputs ds value
  rw [Agrees, heditor]
  exact (TextArea.readOnly_obeyAll s.area cs).trans ha

/-- Where keys and typing agree, a step keeps them so unless it is a toggle that is refused; one in
insert mode does no harm. -/
theorem Ready.agrees_step_iff (h : Ready s) (ha : s.Agrees) (ds : Store.Depths) (i : Input) :
    (s.step ds i).Agrees ↔ ¬ (s.Refuses ds i ∧ s.state.mode ≠ .insert) := by
  cases i with
  | key p => exact iff_of_true (h.agrees_press ha ds p) fun hr => nomatch hr.1.1
  | toggle => simpa [Screen.step, Refuses] using h.agrees_toggle_iff ha ds
  | submit value => exact iff_of_true (h.agrees_submit ha ds value) fun hr => nomatch hr.1.1
  | room r => exact iff_of_true ha fun hr => nomatch hr.1.1

theorem Ready.agrees_run (h : Ready s) (ha : s.Agrees) (is : List (Store.Depths × Input))
    (his : ∀ before i after, is = before ++ i :: after → ¬ (s.run before).Refuses i.1 i.2) :
    (s.run is).Agrees := by
  induction is generalizing s with
  | nil => exact ha
  | cons i is ih =>
    have hi : ¬ s.Refuses i.1 i.2 := his [] i is rfl
    have hstep : (s.step i.1 i.2).Agrees :=
      (h.agrees_step_iff ha i.1 i.2).mpr fun hrefused => hi hrefused.1
    apply ih (h.step i.1 i.2) hstep
    intro before j after heq
    exact his (i :: before) j after (by rw [heq, List.cons_append])

/-- A screen just set up for a text. -/
structure Fresh (shelf : Store.Shelf) (text : Text) (flag : Bool) (s : Screen) : Prop where
  ready : Ready s
  shelf : s.shelf = shelf
  state : s.state = { enabled := flag }
  area : s.area = { text := text, readOnly := flag, calls := [.focus] }

theorem fresh_mount {shelf : Store.Shelf} {depth : ℕ} {text : Text} {flag : Bool} {s₀ : Screen}
    (hstart : Screen.start shelf depth text (some flag) = .ok s₀) : Fresh shelf text flag s₀.mount := by
  have hs₀ := Except.ok.inj hstart
  have htable : s₀.editor.table = .builtIn := by rw [← hs₀]
  have hmount : s₀.mount.editor.table = s₀.editor.table := rfl
  have hsound := TextArea.sound_fresh text flag
  obtain rfl := hs₀
  exact ⟨⟨Nat.succ_pos _, hmount.trans htable, rfl, (State.Consistent.fresh flag).fits,
    ⟨hsound.cursor, hsound.start, hsound.stop⟩, rfl⟩, rfl, rfl, rfl⟩

/-- To take the stored flag is to be given it, with settings that were read. -/
theorem start_given {shelf : Store.Shelf} {depth : ℕ} {text : Text} {enabled : Option Bool}
    {s₀ : Screen} (hstart : Screen.start shelf depth text enabled = .ok s₀) :
    ∃ shelf' flag, Screen.start shelf' depth text (some flag) = .ok s₀ := by
  cases enabled with
  | some flag => exact ⟨shelf, flag, hstart⟩
  | none =>
    cases hload : shelf.loadEnabled depth with
    | error f =>
      simp only [Screen.start, hload] at hstart
      cases hstart
    | ok r =>
      obtain ⟨shelf', flag⟩ := r
      simp only [Screen.start, hload] at hstart
      exact ⟨shelf', flag, hstart⟩

theorem Fresh.agrees {shelf : Store.Shelf} {text : Text} {flag : Bool}
    (h : Fresh shelf text flag s) : s.Agrees := by
  have hold : s.area.readOnly = (s.state.enabled && decide (s.state.mode ≠ .insert)) := by
    rw [h.area, h.state]
    exact (Bool.and_true flag).symm
  exact hold

theorem typing_of_unwanted {key : String} (h : Editor.wants s.state key = false) :
    s.state.enabled = false ∨ s.state.mode = .insert := by
  unfold Editor.wants at h
  rcases Bool.and_eq_false_iff.mp h with hoff | hmode
  · exact .inl hoff
  · refine .inr ?_
    by_contra hm
    simp [hm] at hmode

/-- A text area that takes typing has what is typed at its cursor. -/
theorem text_typeText {a : TextArea} (h : a.readOnly = false) (t : Text) : (a.typeText t).text
    = a.text.take (a.offset a.cursor) ++ t ++ a.text.drop (a.offset a.cursor) := by
  have hnote : (a.note (.type t)).readOnly = false := h
  simp only [TextArea.typeText, hnote]
  rfl

/-- Whatever happens to a screen after it is set up, keys and typing agree as long as no toggle is
refused. Where they agree, a step keeps them so just if it is not a toggle that is refused outside
insert mode. A key for the interpreter types nothing. Any other key comes while the interpreter is off
or inserts, and where they agree what it types is put in at the cursor. -/
theorem routing_agrees (shelf : Store.Shelf) (depth : ℕ) (text : Text) (enabled : Option Bool)
    (s₀ : Screen) (hstart : Screen.start shelf depth text enabled = .ok s₀)
    (is : List (Store.Depths × Input)) :
    let s := s₀.mount.run is
    ((∀ before i after, is = before ++ i :: after → ¬ (s₀.mount.run before).Refuses i.1 i.2) →
      s.Agrees) ∧
    (s.Agrees → ∀ ds i, (s.step ds i).Agrees ↔ ¬ (s.Refuses ds i ∧ s.state.mode ≠ .insert)) ∧
    (∀ (ds : Store.Depths) (p : Press), Editor.wants s.state p.key = true →
      (s.press ds p).2 ≠ .ok false ∧
      ∃ cs, (s.press ds p).1.area.calls = s.area.calls ++ cs ∧ ∀ c ∈ cs, c.types = false) ∧
    (∀ (ds : Store.Depths) (p : Press), Editor.wants s.state p.key = false →
      (s.press ds p).2 = .ok false ∧
      (s.state.enabled = false ∨ s.state.mode = .insert) ∧ (s.press ds p).1.state = s.state ∧
      (s.Agrees → ∀ t, typed? p = some t → (s.press ds p).1.area.text
        = s.area.text.take (s.area.offset s.area.cursor) ++ t
          ++ s.area.text.drop (s.area.offset s.area.cursor))) := by
  intro s
  obtain ⟨shelf', flag, hgiven⟩ := start_given hstart
  have hfresh := fresh_mount hgiven
  have hready : Ready s := hfresh.ready.run is
  refine ⟨hfresh.ready.agrees_run hfresh.agrees is, hready.agrees_step_iff, ?_, ?_⟩
  · intro ds p hw
    obtain ⟨heditor, -, hclaimed⟩ := hready.press_wanted ds hw
    have hsteady := hready.rests.steady (enabled_of_wants hw)
    refine ⟨hclaimed, ?_⟩
    rw [area, heditor]
    exact hsteady.calls_press p
  · intro ds p hw
    have hfree := typing_of_unwanted hw
    cases ht : typed? p with
    | none =>
      rw [press_passed hw ht]
      exact ⟨rfl, hfree, rfl, fun _ t h => absurd h (Option.some_ne_none t).symm⟩
    | some t =>
      rw [press_typed hw ht]
      refine ⟨rfl, hfree, rfl, fun ha t' h => ?_⟩
      obtain rfl := Option.some.inj h
      apply text_typeText
      have hold : s.area.readOnly = (s.state.enabled && decide (s.state.mode ≠ .insert)) := ha
      rw [hold]
      rcases hfree with hoff | hinsert
      · rw [hoff, Bool.false_and]
      · simp [hinsert]

/-- Where the settings refuse to have the interpreter switched off in normal mode, it is off all the
same, and the text area goes on to take no typing. -/
theorem typing_lost_of_refused {shelf shelf' : Store.Shelf} {f : Store.Failure} (depth : ℕ)
    {text : Text} {s₀ : Screen} (hstart : Screen.start shelf depth text (some true) = .ok s₀)
    (hset : shelf.set ds Store.Shelf.enabledKey (.bool false) = (shelf', .error f)) {p : Press}
    {t : Text} (ht : typed? p = some t) (later : Store.Depths) :
    let s := s₀.mount.run [(ds, .toggle)]
    s.state.enabled = false ∧ s.area.readOnly = true ∧ ¬ s.Agrees ∧
      (s.press later p).2 = .ok false ∧ (s.press later p).1.area.text = text := by
  have hfresh := fresh_mount hstart
  have hset' : s₀.mount.shelf.set ds Store.Shelf.enabledKey (.bool (!s₀.mount.state.enabled))
      = (shelf', .error f) := by
    rw [hfresh.shelf, hfresh.state]
    exact hset
  obtain ⟨-, heditor⟩ := toggle_of_refused hfresh.ready.rests.outputs hset'
  intro s
  have hstate : s.state = s₀.mount.state.flipped := congrArg Editor.state heditor
  have harea : s.area = s₀.mount.area := congrArg (fun e => e.desk.area) heditor
  rw [hfresh.state] at hstate
  rw [hfresh.area] at harea
  have hoff : s.state.enabled = false := congrArg State.enabled hstate
  have hreadOnly : s.area.readOnly = true := congrArg TextArea.readOnly harea
  have htext : s.area.text = text := congrArg TextArea.text harea
  have hw : Editor.wants s.state p.key = false := by simp [Editor.wants, hoff]
  have hagrees : ¬ s.Agrees := by
    intro h
    have hold : s.area.readOnly = (s.state.enabled && decide (s.state.mode ≠ .insert)) := h
    rw [hreadOnly, hoff] at hold
    cases hold
  have hlost : (s.area.typeText t).text = text := by
    have hnote : (s.area.note (.type t)).readOnly = true := hreadOnly
    simp only [TextArea.typeText, hnote]
    exact htext
  rw [press_typed hw ht]
  exact ⟨hoff, hreadOnly, hagrees, rfl, hlost⟩

def settingsOf (content : Text) : Store.Shelf :=
  { store := { path := ⟨"", ["settings.json"]⟩ },
    disk := { entries := [(["settings.json"], .file (String.ofList content).toUTF8)] } }

def typingX : Press := { key := "x", character := some "x" }

/-- In normal mode an `i` is for the interpreter, and the `x` after it is typed. -/
theorem typed_after_insert :
    ∃ s₀, Screen.start (settingsOf []) 988 ['a'] (some true) = .ok s₀ ∧
    let s := s₀.mount.run [(⟨988, 988⟩, .key { key := "i", character := some "i" })]
    s.Agrees ∧ s.state.mode = .insert ∧ Editor.wants s.state typingX.key = false ∧
      (s.press ⟨988, 988⟩ typingX).2 = .ok false ∧
      (s.press ⟨988, 988⟩ typingX).1.area.text = ['x', 'a'] := by
  refine ⟨_, rfl, ?_⟩
  obtain ⟨hagrees, -, -, hfree⟩ := routing_agrees (settingsOf []) 988 ['a'] (some true) _ rfl
    [(⟨988, 988⟩, .key { key := "i", character := some "i" })]
  have hkept := hagrees fun before i after heq hrefused => by
    have hi : i ∈ [((⟨988, 988⟩, .key { key := "i", character := some "i" }) :
        Store.Depths × Input)] := by
      rw [heq]
      exact List.mem_append_right before List.mem_cons_self
    rw [List.mem_singleton.mp hi] at hrefused
    cases hrefused.1
  intro s
  obtain ⟨hmode, hw, hput⟩ : s.state.mode = .insert ∧ Editor.wants s.state typingX.key = false ∧
      s.area.text.take (s.area.offset s.area.cursor) ++ ['x']
        ++ s.area.text.drop (s.area.offset s.area.cursor) = ['x', 'a'] := by
    decide +kernel
  obtain ⟨htyped, -, -, htext⟩ := hfree ⟨988, 988⟩ typingX hw
  exact ⟨hkept, hmode, hw, htyped, (htext hkept ['x'] (by decide)).trans hput⟩

/-- A file of brackets refuses the flag to each toggle that can go less deep than they do. The
interpreter is off, and the `x` is lost. -/
theorem typing_lost_after_refused_toggle :
    ∃ s₀, Screen.start (settingsOf (List.replicate 3000 '[')) 988 ['a'] (some true) = .ok s₀ ∧
    ∀ ds later : Store.Depths, ds.reading < 3000 →
    let s := s₀.mount.run [(ds, .toggle)]
    s.state.enabled = false ∧ s.area.readOnly = true ∧ ¬ s.Agrees ∧
      (s.press later typingX).2 = .ok false ∧ (s.press later typingX).1.area.text = ['a'] := by
  refine ⟨_, rfl, fun ds later hds => ?_⟩
  have hdeep : List.replicate 3000 '['
      = List.replicate (ds.reading + 1) '[' ++ List.replicate (3000 - (ds.reading + 1)) '[' := by
    rw [List.replicate_append_replicate, Nat.add_sub_of_le hds]
  have hset := Store.Shelf.set_of_deep (s := settingsOf (List.replicate 3000 '[')) rfl
    (t := List.replicate (3000 - (ds.reading + 1)) '[') (by rw [← hdeep]; rfl) Store.Shelf.enabledKey
    (.bool false)
  have hx : typed? typingX = some ['x'] := by decide
  exact typing_lost_of_refused 988 rfl hset hx later

end Screen
end ModalEditing
