import ModalEditing.Proofs.Surface.Removal

namespace ModalEditing

/-- The binding moves the cursor, and selects on the way or not. Its key is a single character that no
count takes in. -/
structure Binding.Moves (b : Binding) (selects : Bool) (m : Motion) : Prop where
  kind : b.kind = .motion
  key : b.key.toList.length = 1
  digit : isDigitToken b.key = true → b.key = "0"
  action : Motion.read b.action = (selects, some m)

namespace Keymap

/-- The keys of a visual motion move in normal mode as well, and by the same motion. -/
theorem exists_motion {m : String × String} (hm : m ∈ visualMotions) : ∃ motion,
    (∃ b ∈ builtIn.bucket .normal, b.sequence = Binding.sequenceOf m.1 ∧ b.Moves false motion) ∧
      ∃ b ∈ builtIn.bucket .visual, b.sequence = Binding.sequenceOf m.1 ∧ b.Moves true motion := by
  have hall : ∀ m ∈ visualMotions, ∃ b ∈ builtIn.bucket .normal, ∃ c ∈ builtIn.bucket .visual,
      (b.sequence = Binding.sequenceOf m.1 ∧ c.sequence = Binding.sequenceOf m.1) ∧
      (b.kind = .motion ∧ c.kind = .motion) ∧
      (b.key.toList.length = 1 ∧ c.key.toList.length = 1) ∧
      ((isDigitToken b.key = true → b.key = "0") ∧ (isDigitToken c.key = true → c.key = "0")) ∧
      (Motion.read b.action).1 = false ∧ (Motion.read c.action).1 = true ∧
      (Motion.read b.action).2 = (Motion.read c.action).2 ∧
      (Motion.read c.action).2.isSome = true := by
    decide +kernel
  obtain ⟨b, hb, c, hc, ⟨hbs, hcs⟩, ⟨hbk, hck⟩, ⟨hbl, hcl⟩, ⟨hbd, hcd⟩, hmoves, hselects, hsame, hknown⟩ :=
    hall m hm
  obtain ⟨motion, hmotion⟩ := Option.isSome_iff_exists.mp hknown
  exact ⟨motion, ⟨b, hb, hbs, hbk, hbl, hbd, Prod.ext hmoves (hsame.trans hmotion)⟩,
    c, hc, hcs, hck, hcl, hcd, Prod.ext hselects hmotion⟩

end Keymap

theorem Binding.Moves.not_digit {b : Binding} {selects : Bool} {m : Motion} (h : b.Moves selects m)
    {s : State} (hs : s.digits = "") (g : Group) : s.countsDigit g b.key = false := by
  rw [Bool.eq_false_iff]
  intro hc
  obtain ⟨-, hdigit, hzero⟩ := (s.countsDigit_iff g b.key).mp hc
  exact hzero.elim (fun hne => hne (h.digit hdigit)) (fun hne => hne hs)

namespace TextArea
variable {a : TextArea} {l : Location}

theorem cursor_moveCursor (hl : l.Within a.lines) (select : Bool) :
    (a.moveCursor l select).cursor = l := hl.clampTo_eq

theorem selection_moveCursor (hl : l.Within a.lines) (select : Bool) :
    (a.moveCursor l select).selection = ⟨if select then a.selection.start else l, l⟩ := by
  have hplaced : (a.moveCursor l select).selection
      = ⟨if select then a.selection.start else clampTo a.lines l, clampTo a.lines l⟩ := rfl
  rw [hplaced, hl.clampTo_eq]

/-- To move to one location and on to another while selecting selects what is between them. -/
theorem selection_select {x y : Location} (hx : x.Within a.lines) (hy : y.Within a.lines) :
    ((a.moveCursor x).moveCursor y true).selection = ⟨x, y⟩ := by
  have hy : y.Within (a.moveCursor x).lines := hy
  rw [selection_moveCursor hy, if_pos rfl, selection_moveCursor hx, if_neg (by decide)]

end TextArea

namespace Desk
variable {d : Desk} {name : String} {m : Motion}

theorem applyMotion_move (hm : Motion.read name = (false, some m)) (count : ℕ) :
    d.applyMotion name count = (d.move (m.target d.area.lines d.area.cursor count), none) := by
  rw [applyMotion, hm]
  rfl

theorem applyMotion_select (hm : Motion.read name = (true, some m)) (count : ℕ) :
    d.applyMotion name count = d.selectTo (m.target d.area.lines d.area.cursor count) := by
  rw [applyMotion, hm]
  rfl

/-- Outside visual line mode all from the anchor to a location is selected. -/
theorem selectTo_chars (h : d.state.mode ≠ .visualLine) (l : Location) :
    d.selectTo l = ((d.move (d.anchor.getD d.area.cursor)).move l true, none) := by
  rw [selectTo, if_pos h]

/-- What becomes of a text area whose selection is taken does not depend on the rest of the desk. -/
theorem area_takeSelection {d' : Desk} (h : d.area = d'.area) (remove : Bool) :
    (d.takeSelection remove).area = (d'.takeSelection remove).area := by
  obtain ⟨state, area, anchor, asks, outputs⟩ := d
  obtain rfl : area = d'.area := h
  cases remove <;> rfl

end Desk

namespace Editor
variable {e : Editor} {mode : Mode} {leader : String} {g : Group} {b : Binding} {p : Press}

def tokens (ps : List Press) : List String := ps.map fun p => p.toKey.token

/-- The presses of the keys of some motions are those of one motion after the other. -/
theorem motions_induction {C : List Press → Prop} (nil : C [])
    (append : ∀ m ∈ Keymap.visualMotions, ∀ first rest, tokens first = Binding.sequenceOf m.1 → C rest →
      C (first ++ rest))
    {ms : List (String × String)} (hms : ∀ m ∈ ms, m ∈ Keymap.visualMotions) {ps : List Press}
    (hps : tokens ps = ms.flatMap fun m => Binding.sequenceOf m.1) : C ps := by
  induction ms generalizing ps with
  | nil =>
    obtain rfl : ps = [] := by simpa [tokens] using hps
    exact nil
  | cons m ms ih =>
    obtain ⟨first, rest, rfl, hfirst, hrest⟩ : ∃ first rest, ps = first ++ rest ∧
        tokens first = Binding.sequenceOf m.1 ∧
        tokens rest = ms.flatMap fun m => Binding.sequenceOf m.1 := List.map_eq_append_iff.mp hps
    exact append m (hms m List.mem_cons_self) first rest hfirst
      (ih (fun m hm => hms m (List.mem_cons_of_mem _ hm)) hrest)

/-- An editor in normal mode with nothing pending, and with the built-in bindings. -/
structure Waiting (e : Editor) : Prop where
  enabled : e.state.enabled = true
  mode : e.state.mode = .normal
  idle : e.state.Idle
  table : e.table = .builtIn
  applies : e.applies = true

/-- An editor in this mode with the built-in bindings, where no more than a leader is pending. -/
structure Poised (mode : Mode) (leader : String) (e : Editor) : Prop where
  enabled : e.state.enabled = true
  mode : e.state.mode = mode
  digits : e.state.digits = ""
  leader : e.state.leader = leader
  consistent : e.state.Consistent
  table : e.table = .builtIn
  applies : e.applies = true

theorem Waiting.poised (h : e.Waiting) : e.Poised .normal "" :=
  ⟨h.enabled, h.mode, h.idle.1, h.idle.2, h.idle.consistent, h.table, h.applies⟩

namespace Poised

theorem idle (h : e.Poised mode "") : e.state.Idle := ⟨h.digits, h.leader⟩

theorem group (h : e.Poised mode leader) (hg : mode.group? = some g) :
    e.state.mode.group? = some g := by
  rw [h.mode, hg]

/-- A key that completes a binding carries its action out, in the mode that the binding leads to. -/
theorem press_bound (h : e.Poised mode leader) (hc : e.state.Completes e.table p.toKey g b)
    (target : Option Mode) (ht : b.target? = target.map Mode.name) :
    ∃ (d : Desk) (a : Action), d.area = e.desk.area ∧ d.anchor = e.desk.anchor ∧
      d.state.mode = target.getD mode ∧
      State.Performed e.state b 1 d.state a ∧
      ∀ d' : Desk, d.perform? a = some (d', none) →
        (∃ registers, d'.state = { d.state with registers := registers }) →
        ∃ e', e.press p = (e', .ok a) ∧ e'.Poised (target.getD mode) "" ∧ e'.state = d'.state ∧
          e'.desk.anchor = d'.anchor ∧
          e'.desk.area = { d'.area with readOnly := decide (target.getD mode ≠ .insert) } := by
  have hnamed : ∀ name, b.target? = some name → ∃ m : Mode, m.name = name := by
    intro name hname
    rw [ht, Option.map_eq_some_iff] at hname
    obtain ⟨m, -, hm⟩ := hname
    exact ⟨m, hm⟩
  obtain ⟨a, hdone, hpress⟩ := press_of_completes h.enabled h.applies h.consistent h.digits hc hnamed
  have hmode : (e.answered p).state.mode = target.getD mode := by
    apply Mode.name_inj
    rw [hdone.mode, ht, h.mode]
    cases target <;> rfl
  refine ⟨(e.answered p).begun a, a, rfl, rfl, hmode, hdone, ?_⟩
  rintro d' hperform ⟨registers, hstate⟩
  obtain ⟨os, happly⟩ := Desk.apply_of_perform hperform
  obtain ⟨os', hpress⟩ := hpress _ happly
  have hstate : d'.state = { (e.answered p).state with registers := registers } := hstate
  have hmode' : d'.state.mode = target.getD mode := by rw [hstate, hmode]
  have hidle : d'.state.Idle := by
    rw [hstate]
    exact hdone.idle
  have henabled : d'.state.enabled = true := by
    rw [hstate]
    exact hdone.enabled.trans h.enabled
  refine ⟨_, hpress, ⟨henabled, hmode', hidle.1, hidle.2, hidle.consistent, h.table, h.applies⟩, rfl, rfl,
    ?_⟩
  rw [← hmode']

/-- A key that completes a motion moves as the motion does. -/
theorem press_motion (h : e.Poised mode leader) (hc : e.state.Completes e.table p.toKey g b)
    {selects : Bool} {m : Motion} (hb : b.Moves selects m) {area : TextArea}
    (harea : ∀ d : Desk, d.area = e.desk.area → d.anchor = e.desk.anchor → d.state.mode = mode →
      d.applyMotion b.action 1 = ({ d with area := area }, none)) :
    ∃ e' a, e.press p = (e', .ok a) ∧ e'.Poised mode "" ∧ e'.desk.anchor = e.desk.anchor ∧
      e'.desk.area = { area with readOnly := decide (mode ≠ .insert) } := by
  obtain ⟨d, a, hsame, hanchor, hmode, hdone, hpress⟩ := h.press_bound hc none
    (by rw [Binding.target?, hb.kind]; rfl)
  have hkind : a.kind = .motion := by rw [hdone.kind, hb.kind, BindingKind.actionKind]
  have hcount : a.count = 1 := by rw [hdone.count, if_pos (.inl hb.kind)]
  obtain ⟨e', hpress, hpoised, -, hanchor', harea'⟩ := hpress { d with area := area }
    (by
      rw [Desk.perform?_motion hkind, hdone.name, hcount]
      exact congrArg some (harea d hsame hanchor hmode))
    ⟨d.state.registers, rfl⟩
  exact ⟨e', a, hpress, hpoised, hanchor'.trans hanchor, harea'⟩

/-- A key of one character that is no digit completes its binding at once. -/
theorem completes (h : e.Poised mode "") (hg : mode.group? = some g) {key : String}
    (hp : p.toKey.token = key) (hlen : key.toList.length = 1) (hd : isDigitToken key = false)
    (hf : Keymap.builtIn.find? g [key] = some b) : e.state.Completes e.table p.toKey g b := by
  subst hp
  refine State.completes_single (h.table ▸ Keymap.lawful_builtIn) hlen (h.group hg) ?_ h.leader
    (h.table ▸ hf)
  rw [Bool.eq_false_iff]
  intro hc
  obtain ⟨-, hdigit, -⟩ := (e.state.countsDigit_iff g p.toKey.token).mp hc
  exact absurd hdigit (by simp [hd])

/-- A key that enters a mode prepares the text area for it. -/
theorem press_entry (h : e.Poised mode "") (hc : e.state.Completes e.table p.toKey g b)
    (hk : b.kind = .modeChange) {target : Mode} (ht : b.target? = some target.name)
    (entry : EntryName) (hn : EntryName.names.lookup b.action = some entry) (area : TextArea)
    (anchor : Option Location)
    (henter : ∀ d : Desk, d.area = e.desk.area → d.state.mode = target →
      d.enter entry = ({ d with area := area, anchor := anchor }, none)) :
    ∃ e' a, e.press p = (e', .ok a) ∧ e'.Poised target "" ∧ e'.desk.anchor = anchor ∧
      e'.desk.area = { area with readOnly := decide (target ≠ .insert) } := by
  obtain ⟨d, a, hsame, -, hmode, hdone, hpress⟩ := h.press_bound hc (some target) ht
  have hkind : a.kind = .modeChange := by rw [hdone.kind, hk, BindingKind.actionKind]
  obtain ⟨e', hpress, hpoised, -, hanchor, harea⟩ := hpress { d with area := area, anchor := anchor }
    (by
      rw [Desk.perform?_modeChange hkind, hdone.name]
      simp only [Option.getD_some, Desk.applyModeChange, hn]
      exact congrArg some (henter d hsame hmode))
    ⟨d.state.registers, rfl⟩
  exact ⟨e', a, hpress, hpoised, hanchor, harea⟩

/-- A key that takes the selection puts it into the register, and goes back to normal mode. -/
theorem press_take (h : e.Poised mode "") (hc : e.state.Completes e.table p.toKey g b)
    (hk : b.kind = .edit) (ht : b.target? = some Mode.normal.name) (remove : Bool)
    (hn : b.action = if remove then "delete-selection" else "yank-selection") :
    ∃ e' a, e.press p = (e', .ok a) ∧ e'.Poised .normal "" ∧
      e'.state.unnamed = e.desk.area.selectedText ∧
      e'.desk.area = { (e.desk.takeSelection remove).area with readOnly := true } := by
  obtain ⟨d, a, hsame, -, -, hdone, hpress⟩ := h.press_bound hc (some .normal) ht
  have hkind : a.kind = .edit := by rw [hdone.kind, hk, BindingKind.actionKind]
  have hperform : d.perform? a = some (d.takeSelection remove, none) := by
    rw [Desk.perform?_edit hkind, hdone.name, hn]
    cases remove <;> rfl
  have hstate : (d.takeSelection remove).state = d.state.yank d.area.selectedText := by
    cases remove <;> rfl
  have htaken := Desk.area_takeSelection hsame remove
  obtain ⟨e', hpress, hpoised, hstate', -, harea⟩ := hpress _ hperform ⟨_, hstate⟩
  refine ⟨e', a, hpress, hpoised, ?_, htaken ▸ harea⟩
  rw [hstate', hstate, hsame]
  exact Bank.get_set_self _ _ _

/-- The first press of a doubled key only waits for the second. -/
theorem press_leader (h : e.Poised mode "") (hg : mode.group? = some g)
    (hn : p.toKey.name ≠ escapeName) (hd : e.state.countsDigit g p.toKey.token = false)
    (hl : e.table.isLeader g p.toKey.token = true) :
    ∃ e', e.press p = (e', .ok .nothing) ∧ e'.Poised mode p.toKey.token ∧
      e'.desk.anchor = e.desk.anchor ∧ e'.desk.area = e.desk.area := by
  have hr := State.readKey_of_leader hn (h.group hg) hd h.leader hl
  obtain ⟨os, hp⟩ := press_of_nothing h.enabled (by rw [hr])
  have hstate : (e.answered p).state = { e.state with leader := p.toKey.token } := by
    rw [answered_state h.enabled, hr]
  refine ⟨_, hp, ⟨?_, ?_, ?_, congrArg State.leader hstate, ?_, h.table, h.applies⟩, rfl, rfl⟩
  · exact (congrArg State.enabled hstate).trans h.enabled
  · exact (congrArg State.mode hstate).trans h.mode
  · exact (congrArg State.digits hstate).trans h.digits
  · have hs : (e.answered p).state.Consistent := by
      rw [hstate]
      exact h.consistent.of_reading h.enabled (.leader g hn (h.group hg) h.leader hl)
    exact hs

/-- The keys of a motion, pressed once or twice, carry it out once. -/
theorem motion (h : e.Poised mode "") (hg : mode.group? = some g)
    (hmem : b ∈ Keymap.builtIn.bucket g) {selects : Bool} {m : Motion} (hb : b.Moves selects m)
    {ps : List Press} (hps : tokens ps = b.sequence) (area : TextArea)
    (harea : ∀ d : Desk, d.area = e.desk.area → d.anchor = e.desk.anchor → d.state.mode = mode →
      d.applyMotion b.action 1 = ({ d with area := area }, none)) :
    ∃ e', e.pressAll ps = .ok e' ∧ e'.Poised mode "" ∧ e'.desk.anchor = e.desk.anchor ∧
      e'.desk.area = { area with readOnly := decide (mode ≠ .insert) } := by
  have hlawful : e.table.Lawful := h.table ▸ Keymap.lawful_builtIn
  rw [← h.table] at hmem
  have hfind : e.table.find? g b.sequence = some b := hlawful.find?_eq_some_iff.mpr ⟨hmem, rfl⟩
  have not_escape {p : Press} (hp : p.toKey.token = b.key) : p.toKey.name ≠ escapeName :=
    State.not_escape_of_length (hp ▸ hb.key)
  -- The first press of a doubled key only waits, and the second one moves.
  cases hd : b.doubled with
  | false =>
    rw [Binding.sequence, hd] at hps hfind
    obtain ⟨p, rfl, hp⟩ : ∃ p, ps = [p] ∧ p.toKey.token = b.key := by
      simpa [tokens] using hps
    have hc := State.completes_single hlawful (hp ▸ hb.key) (h.group hg)
      (by rw [hp]; exact hb.not_digit h.digits g) h.leader (by rw [hp]; exact hfind)
    obtain ⟨e', a, hpress, hrest⟩ := h.press_motion hc hb harea
    exact ⟨e', pressAll_cons hpress [], hrest⟩
  | true =>
    rw [Binding.sequence, hd] at hps hfind
    obtain ⟨p, q, rfl, hp, hq⟩ : ∃ p q, ps = [p, q] ∧ p.toKey.token = b.key ∧
        q.toKey.token = b.key := by
      simpa [tokens, List.map_eq_cons_iff] using hps
    have hleader : e.table.isLeader g p.toKey.token = true :=
      (e.table.isLeader_iff g p.toKey.token).mpr ⟨b, hmem, hd, hp.symm⟩
    obtain ⟨e₁, hpress, hpoised, hanchor, hsame⟩ := h.press_leader hg (not_escape hp)
      (by rw [hp]; exact hb.not_digit h.digits g) hleader
    have hwaits : e₁.state.leader = b.key := hpoised.leader.trans hp
    have hc : e₁.state.Completes e₁.table q.toKey g b := by
      refine ⟨not_escape hq, hpoised.group hg, ?_, ?_, ?_⟩
      · rw [hq]
        exact hb.not_digit hpoised.digits g
      · intro hnone
        exact absurd (hwaits.symm.trans hnone) b.key_ne
      · rw [State.typed, if_neg (hwaits ▸ b.key_ne), hwaits, hq, hpoised.table, ← h.table]
        exact hfind
    obtain ⟨e', a, hpress', hpoised', hanchor', harea'⟩ := hpoised.press_motion hc hb
      fun d ha hn => harea d (ha.trans hsame) (hn.trans hanchor)
    exact ⟨e', (pressAll_cons hpress [q]).trans (pressAll_cons hpress' []), hpoised',
      hanchor'.trans hanchor, harea'⟩

end Poised
end Editor
end ModalEditing
