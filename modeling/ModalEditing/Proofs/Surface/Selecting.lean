import ModalEditing.Proofs.Surface.Moving

namespace ModalEditing

/-- The area has this text, and a selection that begins and ends in it. -/
structure TextArea.Holds (t : Text) (a : TextArea) : Prop where
  text : a.text = t
  start : a.selection.start.Within (Text.lines t)
  stop : a.selection.stop.Within (Text.lines t)

namespace TextArea
variable {a : TextArea}

theorem holds_moveCursor (a : TextArea) (l : Location) : Holds a.text (a.moveCursor l) :=
  ⟨rfl, Location.within_clampTo (Text.lines_ne_nil _) l,
    Location.within_clampTo (Text.lines_ne_nil _) l⟩

theorem Holds.moveCursor {t : Text} (h : a.Holds t) (l : Location) :
    Holds t (a.moveCursor l true) := by
  obtain ⟨rfl, hstart, -⟩ := h
  exact ⟨rfl, hstart, Location.within_clampTo (Text.lines_ne_nil _) l⟩

end TextArea

namespace Editor
variable {e : Editor} {p : Press} {b : Binding} {t : Text}

/-- A selection under way in this text, with the built-in bindings. -/
structure Selecting (t : Text) (e : Editor) : Prop where
  enabled : e.state.enabled = true
  mode : e.state.mode = .visual
  consistent : e.state.Consistent
  table : e.table = .builtIn
  applies : e.applies = true
  area : e.desk.area.Holds t

theorem Poised.selecting (h : e.Poised .visual "") (ha : e.desk.area.Holds t) :
    Selecting t e ∧ e.state.Idle :=
  ⟨⟨h.enabled, h.mode, h.consistent, h.table, h.applies, ha⟩, h.idle⟩

namespace Selecting

theorem poised (h : Selecting t e) (hi : e.state.Idle) : e.Poised .visual "" :=
  ⟨h.enabled, h.mode, hi.1, hi.2, h.consistent, h.table, h.applies⟩

/-- Whichever motion it is, the selection ends in the text. -/
theorem motion (h : Selecting t e) (hi : e.state.Idle) {m : String × String}
    (hm : m ∈ Keymap.visualMotions) {ps : List Press} (hps : tokens ps = Binding.sequenceOf m.1) :
    ∃ e', e.pressAll ps = .ok e' ∧ Selecting t e' ∧ e'.state.Idle := by
  obtain ⟨motion, -, b, hb, hs, hmoves⟩ := Keymap.exists_motion hm
  obtain ⟨e', hall, hpoised, -, harea⟩ := (h.poised hi).motion rfl hb hmoves (hps.trans hs.symm)
    ((e.desk.area.moveCursor (e.desk.anchor.getD e.desk.area.cursor)).moveCursor
      (motion.target e.desk.area.lines e.desk.area.cursor 1) true)
    fun d hd hn hmode => by
      have hvisual : d.state.mode ≠ .visualLine := by simp [hmode]
      simp only [Desk.applyMotion_select hmoves.action, Desk.selectTo_chars hvisual, Desk.move, hd, hn]
  have hholds := (TextArea.holds_moveCursor e.desk.area
    (e.desk.anchor.getD e.desk.area.cursor)).moveCursor
      (motion.target e.desk.area.lines e.desk.area.cursor 1)
  rw [h.area.text] at hholds
  refine ⟨e', hall, hpoised.selecting ?_⟩
  rw [harea]
  exact ⟨hholds.text, hholds.start, hholds.stop⟩

/-- Motions one after another, each with its own keys. -/
theorem motions (h : Selecting t e) (hi : e.state.Idle) {ms : List (String × String)}
    (hms : ∀ m ∈ ms, m ∈ Keymap.visualMotions) {ps : List Press}
    (hps : tokens ps = ms.flatMap fun m => Binding.sequenceOf m.1) :
    ∃ e', e.pressAll ps = .ok e' ∧ Selecting t e' ∧ e'.state.Idle := by
  refine motions_induction (C := fun ps => ∀ {e}, Selecting t e → e.state.Idle →
    ∃ e', e.pressAll ps = .ok e' ∧ Selecting t e' ∧ e'.state.Idle) ?_ ?_ hms hps h hi
  · exact fun h hi => ⟨_, rfl, h, hi⟩
  · intro m hm first rest hfirst ih e h hi
    obtain ⟨e₁, hpress, hsel, hidle⟩ := h.motion hi hm hfirst
    obtain ⟨e', hpress', hsel', hidle'⟩ := ih hsel hidle
    exact ⟨e', (pressAll_append hpress rest).trans hpress', hsel', hidle'⟩

/-- The key that removes the selection leaves the text in parts, the one selected in the register. -/
theorem press_delete (h : Selecting t e) (hi : e.state.Idle) (hp : p.toKey.token = "d") :
    ∃ e' a, e.press p = (e', .ok a) ∧ ∃ u c v, t = u ++ c ++ v ∧ e'.desk.Removed u c v := by
  obtain ⟨b, hf, hk, hb, htarget⟩ : ∃ b, Keymap.builtIn.find? .visual ["d"] = some b ∧
      b.kind = .edit ∧ b.action = "delete-selection" ∧ b.target? = some Mode.normal.name := by
    decide +kernel
  have hc := (h.poised hi).completes rfl hp rfl rfl hf
  obtain ⟨a, hdone, hpress⟩ := press_of_completes h.enabled h.applies h.consistent hi.1 hc
    (by simp [htarget])
  have hkind : a.kind = .edit := by rw [hdone.kind, hk, BindingKind.actionKind]
  have hname : EditName.names.lookup (a.name.getD "") = some .deleteSelection := by
    rw [hdone.name, hb]
    rfl
  have harea : ((e.answered p).begun a).area.Holds t := h.area
  obtain ⟨u, c, v, ht, hr⟩ := Desk.removed_selection (d := (e.answered p).begun a)
    (by rw [TextArea.lines, harea.text]; exact harea.start)
    (by rw [TextArea.lines, harea.text]; exact harea.stop)
  obtain ⟨d, hd, hremoved⟩ := Desk.Removed.of_edit hkind hname rfl hr
  obtain ⟨os, hpress⟩ := hpress d hd
  exact ⟨_, a, hpress, u, c, v, harea.text ▸ ht, hremoved.text, hremoved.register, hremoved.cursor⟩

end Selecting

/-- The key that begins a selection. -/
theorem Waiting.press_visual (h : Waiting e) (hp : p.toKey.token = "v") :
    ∃ e' a, e.press p = (e', .ok a) ∧ Selecting e.desk.area.text e' ∧ e'.state.Idle := by
  obtain ⟨b, hf, hk, hb, htarget⟩ : ∃ b, Keymap.builtIn.find? .normal ["v"] = some b ∧
      b.kind = .modeChange ∧ b.action = "visual" ∧ b.target? = some Mode.visual.name := by
    decide +kernel
  obtain ⟨e', a, hpress, hpoised, -, harea⟩ := h.poised.press_entry
    (h.poised.completes rfl hp rfl rfl hf) hk htarget .visual (by rw [hb]; rfl)
    (e.desk.area.moveCursor e.desk.area.cursor) (some e.desk.area.cursor)
    fun d hd _ => by rw [← hd]; rfl
  have hholds := TextArea.holds_moveCursor e.desk.area e.desk.area.cursor
  refine ⟨e', a, hpress, hpoised.selecting ?_⟩
  rw [harea]
  exact ⟨hholds.text, hholds.start, hholds.stop⟩

end Editor
end ModalEditing
