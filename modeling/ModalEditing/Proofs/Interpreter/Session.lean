import ModalEditing.Proofs.Interpreter.Reading
import ModalEditing.Proofs.Keymap.History

namespace ModalEditing

namespace Turn

@[simp] theorem tell_state (t : Turn) (ns : List Notice) : (t.tell ns).state = t.state := rfl

@[simp] theorem become_state (t : Turn) (s : State) : (t.become s).state = s := rfl

@[simp] theorem publish_state (t : Turn) (before : State) : (t.publish before).state = t.state := by
  unfold publish
  split <;> rfl

end Turn

namespace State

theorem handle_of_disabled {s : State} (h : s.enabled = false) (t : Keymap) (k : Key) :
    s.handle t k = (⟨s, []⟩, .ok .nothing) := by
  simp [handle, h]

/-- An enabled interpreter becomes what reading the key comes to, also where that fails. -/
theorem handle_of_enabled {s : State} (h : s.enabled = true) (t : Keymap) (k : Key) :
    (s.handle t k).1.state = (s.readKey t k).1 ∧ (s.handle t k).2 = (s.readKey t k).2 := by
  cases hr : s.readKey t k with
  | mk s' outcome =>
    cases outcome with
    | error e => simp [handle, h, hr]
    | ok a => cases ha : a.isNone <;> simp [handle, h, hr, ha]

def steered (s : State) : Control → State
  | .setMode m => s.switch m
  | .enable => { s with enabled := true }.switch .normal
  | .disable => { s with enabled := false }.resetPending
  | .toggle => if s.enabled then { s with enabled := false }.resetPending
    else { s with enabled := true }.switch .normal
  | .yank text => s.yank text
  | .pattern p => s.setPattern p

theorem control_state (s : State) (c : Control) : (s.control c).state = s.steered c := by
  cases c with
  | toggle => cases h : s.enabled <;> simp [control, toggle, setEnabled, steered, h]
  | _ => simp [control, setMode, setEnabled, setYank, setSearchPattern, steered]

end State

/-- An interpreter's state and its keymap. There are no observers and no journal here, so none that could
raise: what each call would tell is in its turn, and how far a call gets that cannot be reported is said of
a `Station`. -/
structure Session where
  state : State
  keymap : Keymap

namespace Session

/-- The calls of a host. A mode may be asked for by a name, which may be none. -/
inductive Call
  | key (k : Key)
  | control (c : State.Control)
  | modeNamed (name : String)
  | edit (r : Keymap.Request)

def fresh (enabled : Bool) (t : Keymap) : Session := ⟨{ enabled := enabled }, t⟩

def turn (s : Session) : Call → Turn
  | .key k => (s.state.handle s.keymap k).1
  | .control c => s.state.control c
  | .modeNamed name =>
    match Mode.parse name with
    | .ok m => s.state.setMode m
    | .error _ => ⟨s.state, []⟩
  | .edit _ => ⟨s.state, []⟩

def keymapAfter (s : Session) : Call → Keymap
  | .edit r => (s.keymap.answer r).1
  | .key _ | .control _ | .modeNamed _ => s.keymap

def step (s : Session) (c : Call) : Session := ⟨(s.turn c).state, s.keymapAfter c⟩

def run (s : Session) (cs : List Call) : Session := cs.foldl step s

@[simp] theorem run_nil (s : Session) : s.run [] = s := rfl

@[simp] theorem run_cons (s : Session) (c : Call) (cs : List Call) :
    s.run (c :: cs) = (s.step c).run cs := rfl

theorem run_append (s : Session) (cs cs' : List Call) : s.run (cs ++ cs') = (s.run cs).run cs' :=
  List.foldl_append

inductive Stepping (s : Session) : State → Prop
  | same : Stepping s s.state
  | read (k : Key) (h : s.state.enabled = true) : Stepping s (s.state.readKey s.keymap k).1
  | steered (c : State.Control) : Stepping s (s.state.steered c)

theorem stepping (s : Session) (c : Call) : Stepping s (s.step c).state := by
  cases c with
  | key k =>
    simp only [step, turn]
    cases h : s.state.enabled with
    | false =>
      rw [State.handle_of_disabled h]
      exact .same
    | true =>
      rw [(State.handle_of_enabled h s.keymap k).1]
      exact .read k h
  | control c =>
    simp only [step, turn, State.control_state]
    exact .steered c
  | modeNamed name =>
    simp only [step, turn]
    cases Mode.parse name with
    | error e => exact .same
    | ok m =>
      have hm := State.control_state s.state (.setMode m)
      exact hm ▸ .steered (.setMode m)
  | edit r => exact .same

end Session
end ModalEditing
