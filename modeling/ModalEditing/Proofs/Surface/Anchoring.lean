import ModalEditing.Proofs.Surface.Answering
import ModalEditing.Proofs.Surface.Refusing
import ModalEditing.Proofs.Surface.Undoing
import ModalEditing.Proofs.TextArea.Lines

namespace ModalEditing

/-- Typing takes no row away. -/
theorem TextArea.lines_length_typeText (a : TextArea) (t : Text) :
    a.lines.length ≤ (a.typeText t).lines.length := by
  simp only [typeText]
  split
  · exact Nat.le_refl _
  · have hcount := congrArg (List.count '\n') (List.take_append_drop (a.offset a.cursor) a.text)
    rw [List.count_append] at hcount
    have hold : a.lines.length = a.text.count '\n' + 1 := Text.length_lines _
    have hnew := Text.length_lines
      (a.text.take (a.offset a.cursor) ++ t ++ a.text.drop (a.offset a.cursor))
    rw [List.count_append, List.count_append] at hnew
    exact hold.trans_le (le_trans (by omega) hnew.ge)

namespace Desk
variable {d : Desk} {a : Action}

theorem anchor_apply (d : Desk) (a : Action) :
    (d.apply a).1.anchor = (((d.begun a).perform? a).map fun r => r.1.anchor).getD d.anchor := by
  unfold apply begun
  split <;> rename_i h <;> rw [h] <;> rfl

theorem anchor_selectTo (d : Desk) (l : Location) : (d.selectTo l).1.anchor = d.anchor := by
  unfold selectTo
  simp only
  split
  · rfl
  · split
    · rfl
    · split <;> rfl

theorem anchor_apply_of_motion (hk : a.kind = .motion) : (d.apply a).1.anchor = d.anchor := by
  have hmotion : ((d.begun a).applyMotion (a.name.getD "") a.count).1.anchor = d.anchor := by
    unfold applyMotion
    split
    · rfl
    · simp only
      split
      · exact anchor_selectTo _ _
      · rfl
  rw [anchor_apply, perform?_motion hk]
  exact hmotion

theorem anchor_apply_of_visualLine (hk : a.kind = .modeChange) (hn : a.name = some "visual-line") :
    (d.apply a).1.anchor = some ⟨d.row, 0⟩ := by
  have hp : (d.begun a).perform? a = some ((d.begun a).enter .visualLine) := by
    rw [perform?_modeChange hk, hn]
    rfl
  rw [anchor_apply, hp]
  exact anchor_selectTo _ _

theorem Applied.sound {cs : List Call} {r : Desk × Option Failure} (h : Applied d a cs r)
    (hs : d.area.Sound) : r.1.area.Sound := by
  have hall := hs.obeyAll cs
  rw [h.area]
  exact ⟨hall.cursor, hall.start, hall.stop⟩

theorem Applied.consistent {cs : List Call} {r : Desk × Option Failure} (h : Applied d a cs r)
    (hc : d.state.Consistent) : r.1.state.Consistent := by
  obtain ⟨registers, hstate⟩ := h.state
  rw [hstate]
  exact hc.of_registers registers

theorem text_apply_of_not_writes (h : ¬ a.Writes) : (d.apply a).1.area.text = d.area.text := by
  by_contra hne
  exact h (writes_of_text_ne hne)

end Desk

namespace Keymap

/-- Only the key that begins a selection of lines leads to visual line mode, and only motions stay in
it. -/
theorem builtIn_visualLine : ∀ g, ∀ b ∈ builtIn.bucket g,
    (b.target? = some Mode.visualLine.name → b.kind = .modeChange ∧ b.action = "visual-line") ∧
    (g = .visual → b.target? = none → b.kind = .motion) := by
  have hall : ∀ g ∈ Group.all, ∀ b ∈ builtIn.bucket g,
      (b.target? = some Mode.visualLine.name → b.kind = .modeChange ∧ b.action = "visual-line") ∧
      (g = .visual → b.target? = none → b.kind = .motion) := by
    decide +kernel
  intro g
  exact hall g g.mem_all

end Keymap

/-- What yields an action that leads to visual line mode or leaves it on. -/
theorem State.Answer.of_visualLine {s : State} {t : Keymap} {r : State × Except Fault Action}
    (h : Answer s t r) (ht : t = .builtIn) {a : Action} (ha : r.2 = .ok a) (hn : a.isNone = false)
    (hm : r.1.mode = .visualLine) :
    (a.kind = .modeChange ∧ a.name = some "visual-line") ∨
      (a.kind = .motion ∧ s.mode = .visualLine) := by
  cases h with
  | silent _ nothing => exact absurd (nothing a ha) (by simp [hn])
  | left => cases hm
  | @bound g b n s' a' group mem done =>
    obtain rfl : a' = a := Except.ok.inj ha
    obtain ⟨henters, hstays⟩ := Keymap.builtIn_visualLine g b (ht ▸ mem)
    have hm : s'.mode = .visualLine := hm
    have htarget := done.mode
    rw [hm] at htarget
    cases ht : b.target? with
    | some name =>
      rw [ht, Option.getD_some] at htarget
      obtain ⟨hk, haction⟩ := henters (by rw [ht, htarget])
      exact .inl ⟨by rw [done.kind, hk, BindingKind.actionKind], by rw [done.name, haction]⟩
    | none =>
      rw [ht, Option.getD_none] at htarget
      have hbefore : s.mode = .visualLine := (Mode.name_inj htarget).symm
      obtain rfl : g = .visual := by
        rw [hbefore] at group
        exact (Option.some.inj group).symm
      exact .inr ⟨by rw [done.kind, hstays rfl ht, BindingKind.actionKind], hbefore⟩

namespace Editor
variable {e : Editor}

/-- What happens to an editor: a key, text typed past the interpreter, a call that steers it, or memory
that leaves other room for copies. -/
inductive Input
  | press (p : Press)
  | type (t : Text)
  | control (c : State.Control)
  | room (r : Option ℕ)

/-- Text is typed only while the interpreter is off or inserts. -/
def step (e : Editor) : Input → Editor
  | .press p => (e.press p).1
  | .type t =>
    if e.state.enabled && e.state.mode ≠ .insert then e
    else { e with desk.area := e.desk.area.typeText t }
  | .control c => e.control c
  | .room r => { e with desk.room := r }

def run (e : Editor) (is : List Input) : Editor := is.foldl step e

/-- An editor with the built-in bindings that carries out actions, its cursor and selection in the
text. -/
structure Steady (e : Editor) : Prop where
  table : e.table = .builtIn
  applies : e.applies = true
  consistent : e.state.Consistent
  sound : e.desk.area.Sound

/-- A selection of whole lines begins in a row of the text. -/
def Anchored (e : Editor) : Prop :=
  e.state.mode = .visualLine →
    ∀ l, e.desk.anchor = some l → l.row < e.desk.area.lines.length

theorem Steady.step (h : e.Steady) (i : Input) : (e.step i).Steady := by
  cases i with
  | press p =>
    have hp := pressed h.applies h.consistent p
    have hc : (e.answered p).state.Consistent := (h.consistent.answer e.table p.toKey).2.2
    simp only [Editor.step]
    generalize e.press p = r at hp ⊢
    cases hp with
    | silent quiet mode nothing result => exact ⟨h.table, h.applies, hc, h.sound⟩
    | carried quiet outcome acts answer apply applied =>
      exact ⟨h.table, h.applies, applied.consistent hc, applied.sound h.sound⟩
  | type t =>
    simp only [Editor.step]
    split
    · exact h
    · exact ⟨h.table, h.applies, h.consistent, h.sound.typeText t⟩
  | control c =>
    refine ⟨h.table, h.applies, ?_, h.sound⟩
    have hs := h.consistent.steered c
    rwa [← State.control_state] at hs
  | room r => exact ⟨h.table, h.applies, h.consistent, h.sound⟩

theorem Steady.run (h : e.Steady) (is : List Input) : (e.run is).Steady := by
  induction is generalizing e with
  | nil => exact h
  | cons i is ih => exact ih (h.step i)

/-- The anchor stays in the text through every key: visual line mode is entered at the cursor, and in it
the text does not change. -/
theorem Anchored.press (h : e.Anchored) (hs : e.Steady) (p : Press) : (e.press p).1.Anchored := by
  have hp := pressed hs.applies hs.consistent p
  generalize e.press p = r at hp ⊢
  cases hp with
  | silent quiet mode nothing result =>
    intro hm
    exact h (mode.symm.trans hm)
  | @carried os a cs d failure quiet outcome acts answer apply applied =>
    intro hm l hl
    have hmode : (e.answered p).state.mode = .visualLine := by
      obtain ⟨registers, hstate⟩ := applied.state
      rw [← hm]
      exact (congrArg State.mode hstate).symm
    have hd : ((e.answered p).apply a).1 = d := by rw [apply]
    have hkept (hw : ¬ a.Writes) : d.area.lines = e.desk.area.lines := by
      have htext : d.area.text = e.desk.area.text := by
        rw [← hd]
        exact Desk.text_apply_of_not_writes hw
      rw [TextArea.lines, htext]
      rfl
    -- The key began the selection, at the cursor, or moved within it; neither writes.
    rcases answer.of_visualLine hs.table rfl acts hmode with ⟨hkind, hname⟩ | ⟨hkind, hbefore⟩
    · have hanchor : d.anchor = some ⟨e.desk.row, 0⟩ := by
        rw [← hd]
        exact Desk.anchor_apply_of_visualLine hkind hname
      obtain rfl : ⟨e.desk.row, 0⟩ = l := Option.some.inj (hanchor.symm.trans hl)
      rw [hkept (by simp [Action.Writes, hkind, hname])]
      exact hs.sound.cursor.row
    · have hanchor : d.anchor = e.desk.anchor := by
        rw [← hd]
        exact Desk.anchor_apply_of_motion hkind
      rw [hkept (by simp [Action.Writes, hkind])]
      exact h hbefore l (hanchor.symm.trans hl)

theorem Anchored.step (h : e.Anchored) (hs : e.Steady) {i : Input}
    (hi : i ≠ .control (.setMode .visualLine)) : (e.step i).Anchored := by
  cases i with
  | press p => exact h.press hs p
  | type t =>
    simp only [Editor.step]
    split
    · exact h
    · intro hm l hl
      exact (h hm l hl).trans_le (TextArea.lines_length_typeText _ t)
  | control c =>
    intro hm
    have hmode : (e.state.steered c).mode = .visualLine := by
      rw [← State.control_state]
      exact hm
    -- No other call enters visual line mode, so it was on before.
    have hbefore : e.state.mode = .visualLine := by
      cases c with
      | setMode m =>
        obtain rfl : m = .visualLine := hmode
        exact absurd rfl hi
      | enable => cases hmode
      | disable => exact hmode
      | toggle =>
        simp only [State.steered] at hmode
        split at hmode
        · exact hmode
        · cases hmode
      | yank text => exact hmode
      | pattern p => exact hmode
    exact h hbefore
  | room r => exact h

theorem Anchored.run (h : e.Anchored) (hs : e.Steady) {is : List Input}
    (his : ∀ i ∈ is, i ≠ .control (.setMode .visualLine)) : (e.run is).Anchored := by
  induction is generalizing e with
  | nil => exact h
  | cons i is ih =>
    have hi := his i List.mem_cons_self
    exact ih (h.step hs hi) (hs.step i) fun j hj => his j (List.mem_cons_of_mem _ hj)

/-- A press is not carried through just where the action it yields is stuck. -/
theorem press_fails_iff (hs : e.Steady) (p : Press) (f : Desk.Failure) :
    (e.press p).2 = .error (.area f) ↔
      ∃ a, (e.state.handle e.table p.toKey).2 = .ok a ∧ (e.answered p).Stuck a f := by
  have hsound : (e.answered p).area.Sound := hs.sound
  have hp := pressed hs.applies hs.consistent p
  generalize e.press p = r at hp ⊢
  cases hp with
  | silent quiet mode nothing result =>
    constructor
    · exact fun h => absurd h (result f)
    · -- What is stuck is a motion or an edit, and here there was nothing to carry out.
      rintro ⟨a, ha, hstuck⟩
      have hnone := nothing a ha
      cases hstuck <;> simp_all [Action.isNone]
  | @carried os a cs d failure quiet outcome acts answer apply applied =>
    have hfails := Desk.apply_fails_iff (a := a) (f := f) hsound
    rw [apply] at hfails
    constructor
    · intro h
      cases failure with
      | none => cases h
      | some f' =>
        obtain rfl : f' = f := by simpa using h
        exact ⟨a, outcome, hfails.mp rfl⟩
    · rintro ⟨a', ha', hstuck⟩
      obtain rfl : a = a' := Except.ok.inj (outcome.symm.trans ha')
      obtain rfl : failure = some f := hfails.mpr hstuck
      rfl

/-- Whatever happens to an editor, its cursor and its selection stay in the text, and so does every
location that a motion leads to. A key fails on the text area only where a selection of whole lines is
extended from a row that is gone, or where the register cannot be put back so often. The first does not
happen unless the host sets visual line mode. -/
theorem fails_iff_stuck (e : Editor) (hs : e.Steady) (hn : e.desk.anchor = none) (is : List Input) :
    (e.run is).desk.area.Sound ∧
    (∀ (m : Motion) (count : ℕ), (m.target (e.run is).desk.area.lines (e.run is).desk.area.cursor
      count).Within (e.run is).desk.area.lines) ∧
    (∀ (p : Press) (f : Desk.Failure), ((e.run is).press p).2 = .error (.area f) ↔
      ∃ a, ((e.run is).state.handle .builtIn p.toKey).2 = .ok a ∧ ((e.run is).answered p).Stuck a f) ∧
    ((∀ i ∈ is, i ≠ .control (.setMode .visualLine)) →
      ∀ p : Press, ((e.run is).press p).2 ≠ .error (.area .noLine)) := by
  have hrun := hs.run is
  refine ⟨hrun.sound, fun m count => m.target_within hrun.sound.cursor count, ?_, ?_⟩
  · intro p f
    rw [press_fails_iff hrun, hrun.table]
  · intro his p hfails
    have hanchored : (e.run is).Anchored := by
      refine Anchored.run ?_ hs his
      intro _ l hl
      rw [hn] at hl
      cases hl
    obtain ⟨a, ha, hstuck⟩ := (press_fails_iff hrun p .noLine).mp hfails
    cases hstuck with
    | @anchor m start kind motion mode anchor gone =>
      have hanswer := (hrun.consistent.answer (e.run is).table p.toKey).1
      rcases hanswer.of_visualLine hrun.table ha (by simp [Action.isNone, kind]) mode with
        ⟨hkind, -⟩ | ⟨-, hmode⟩
      · cases kind.symm.trans hkind
      · exact absurd (hanchored hmode start anchor) (Nat.not_lt.mpr gone)

def opened (t : Text) : Editor :=
  { desk := { state := { enabled := true }, area := { text := t } }, table := .builtIn }

theorem steady_opened (t : Text) : (opened t).Steady where
  table := by rw [opened]
  applies := rfl
  consistent := State.Consistent.fresh true
  sound := TextArea.sound_fresh t false

def Input.keys (ks : List String) : List Input :=
  ks.map fun k => .press { key := k, character := some k }

/-- Two rows are selected and removed; then a selection of the row that is left goes up. -/
theorem lines_selected_after_lines_removed :
    (opened ['a', '\n', 'b', '\n', 'c']).Steady ∧
    (opened ['a', '\n', 'b', '\n', 'c']).desk.anchor = none ∧
    let is := Input.keys ["j", "V", "j", "d", "V"]
    (∀ i ∈ is, i ≠ .control (.setMode .visualLine)) ∧
    ((opened ['a', '\n', 'b', '\n', 'c']).run is).state.mode = .visualLine ∧
    ∀ p : Press, (((opened ['a', '\n', 'b', '\n', 'c']).run is).press p).2 ≠ .error (.area .noLine) := by
  have hs := steady_opened ['a', '\n', 'b', '\n', 'c']
  have his : ∀ i ∈ Input.keys ["j", "V", "j", "d", "V"], i ≠ .control (.setMode .visualLine) := by
    simp [Input.keys]
  obtain ⟨-, -, -, hnever⟩ := fails_iff_stuck _ hs rfl (Input.keys ["j", "V", "j", "d", "V"])
  exact ⟨hs, rfl, his, by decide +kernel, hnever his⟩

/-- The anchor is left in the last row, which is then deleted. When the host sets visual line mode, the
next selection goes back to that row. -/
theorem stale_anchor_fails :
    let before := Input.keys ["j", "v"] ++ [.control (.setMode .normal)] ++ Input.keys ["d", "d"]
      ++ [.control (.setMode .visualLine)]
    let now := (opened ['a', '\n', 'b']).run before
    now.desk.area.text = ['a'] ∧ now.desk.anchor = some ⟨1, 0⟩ ∧
      (now.press { key := "h", character := some "h" }).2 = .error (.area .noLine) := by
  decide +kernel

end Editor
end ModalEditing
