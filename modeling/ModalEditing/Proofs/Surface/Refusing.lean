import ModalEditing.Proofs.Surface.Asking
import ModalEditing.Proofs.TextArea.Motion

namespace ModalEditing.Desk
variable {d : Desk} {a : Action} {l : Location} {f : Failure}

inductive Stuck (d : Desk) (a : Action) : Failure → Prop
  | anchor {m : Motion} {start : Location} (kind : a.kind = .motion)
      (motion : Motion.read (a.name.getD "") = (true, some m)) (mode : d.state.mode = .visualLine)
      (anchor : d.anchor = some start) (gone : d.area.lines.length ≤ start.row) : Stuck d a .noLine
  | copies {e : Text.CopyError} (kind : a.kind = .edit)
      (name : a.name = some "paste-after" ∨ a.name = some "paste-before")
      (register : d.state.unnamed ≠ []) (copies : Text.copyError? d.room a.count d.state.unnamed = some e) :
    Stuck d a (.copies e)

/-- A selection fails just where it goes back to the end of a row that is not there. -/
theorem selectTo_failure (d : Desk) (l : Location) : (d.selectTo l).2 =
    if d.state.mode = .visualLine ∧ l.before (d.anchor.getD d.area.cursor) = true ∧
      d.area.lines.length ≤ (d.anchor.getD d.area.cursor).row then some .noLine else none := by
  unfold selectTo
  simp only
  split
  · rename_i hm
    rw [if_neg fun h => hm h.1]
  · rename_i hm
    split
    · rename_i hb
      rw [if_neg fun h => by simp [h.2.1] at hb]
    · rename_i hb
      have hm : d.state.mode = .visualLine := by simpa using hm
      have hb : l.before (d.anchor.getD d.area.cursor) = true := by simpa using hb
      split
      · rename_i line hline
        have hlt := (List.getElem?_eq_some_iff.mp hline).1
        rw [if_neg fun h => by omega]
      · rename_i hnone
        rw [if_pos ⟨hm, hb, List.getElem?_eq_none_iff.mp hnone⟩]

/-- A selection that ends in the text fails just where its start is in no row of it. -/
theorem selectTo_fails_iff (hc : d.area.cursor.row < d.area.lines.length)
    (hl : l.row < d.area.lines.length) : (d.selectTo l).2 = some f ↔
      f = .noLine ∧ d.state.mode = .visualLine ∧
        ∃ start, d.anchor = some start ∧ d.area.lines.length ≤ start.row := by
  rw [selectTo_failure]
  constructor
  · intro h
    split at h
    · rename_i hlost
      obtain ⟨hmode, -, hrow⟩ := hlost
      refine ⟨(Option.some.inj h).symm, hmode, ?_⟩
      cases ha : d.anchor with
      | none =>
        rw [ha, Option.getD_none] at hrow
        omega
      | some start =>
        rw [ha, Option.getD_some] at hrow
        exact ⟨start, rfl, hrow⟩
    · cases h
  · rintro ⟨rfl, hmode, start, ha, hrow⟩
    rw [ha, Option.getD_some]
    -- The end is in the text and the start below it, so the selection goes back.
    have hbefore : l.before start = true := by
      have hlt : l.row < start.row := by omega
      simp [Location.before, hlt]
    rw [if_pos ⟨hmode, hbefore, hrow⟩]

/-- Entering a mode never fails: a selection of whole lines begins in the cursor's row. -/
theorem enter_failure (d : Desk) (e : EntryName) : (d.enter e).2 = none := by
  cases e with
  | visualLine =>
    have hbefore : Location.before ⟨d.row, (d.area.line d.row).length⟩ ⟨d.row, 0⟩ = false := by
      simp [Location.before]
    rw [enter, selectTo_failure, if_neg]
    intro h
    exact Bool.false_ne_true (hbefore.symm.trans h.2.1)
  | _ => rfl

theorem refusal?_eq_some {e : EditName} {count : Nat} {c : Text.CopyError} :
    d.refusal? count e = some c ↔ (e = .pasteAfter ∨ e = .pasteBefore) ∧ d.state.unnamed ≠ [] ∧
      Text.copyError? d.room count d.state.unnamed = some c := by
  cases e <;> simp [refusal?, List.isEmpty_iff]

theorem applyEdit_fails_iff {name : String} {count : Nat} : (d.applyEdit name count).2 = some f ↔
    (name = "paste-after" ∨ name = "paste-before") ∧ d.state.unnamed ≠ [] ∧
      ∃ c, f = .copies c ∧ Text.copyError? d.room count d.state.unnamed = some c := by
  -- A name is that of one edit only, so the two ways to put back are known by their names.
  have hnames {e : EditName} (hn : EditName.names.lookup name = some e) :
      (e = .pasteAfter ∨ e = .pasteBefore) ↔ (name = "paste-after" ∨ name = "paste-before") := by
    have hmem := EditName.mem_of_lookup hn
    constructor
    · rintro (rfl | rfl) <;> simp_all [EditName.names]
    · rintro (rfl | rfl) <;> simp_all [EditName.names]
  unfold applyEdit
  split
  · rename_i hn
    constructor
    · intro h
      cases h
    · rintro ⟨rfl | rfl, -⟩ <;> cases hn
  · rename_i e hn
    rw [← hnames hn]
    cases hr : d.refusal? count e with
    | none =>
      constructor
      · intro h
        cases h
      · rintro ⟨he, hreg, c, -, hc⟩
        have hsome := refusal?_eq_some.mpr ⟨he, hreg, hc⟩
        rw [hr] at hsome
        cases hsome
    | some c =>
      obtain ⟨he, hreg, hc⟩ := refusal?_eq_some.mp hr
      constructor
      · intro h
        exact ⟨he, hreg, c, (Option.some.inj h).symm, hc⟩
      · rintro ⟨-, -, c', rfl, hc'⟩
        rw [hc] at hc'
        rw [Option.some.inj hc']

theorem apply_failure (d : Desk) (a : Action) :
    (d.apply a).2 = ((d.begun a).perform? a).bind Prod.snd := by
  unfold apply begun
  split <;> rename_i h <;> rw [h] <;> rfl

theorem motion_fails_iff (hs : d.area.Sound) (hk : a.kind = .motion) : (d.apply a).2 = some f ↔
    f = .noLine ∧ (∃ m, Motion.read (a.name.getD "") = (true, some m)) ∧ d.state.mode = .visualLine ∧
      ∃ start, d.anchor = some start ∧ d.area.lines.length ≤ start.row := by
  rw [apply_failure, perform?_motion hk, Option.bind_some]
  unfold applyMotion
  split
  · rename_i hm
    simp [hm]
  · rename_i selects m hm
    have htarget : (m.target d.area.lines d.area.cursor a.count).Within d.area.lines :=
      m.target_within hs.cursor a.count
    have hfails := selectTo_fails_iff (d := d.begun a) (f := f) hs.cursor.row htarget.row
    cases selects with
    | false => simp [hm]
    | true =>
      simp only [if_true]
      constructor
      · intro h
        obtain ⟨hf, hmode, hstart⟩ := hfails.mp h
        exact ⟨hf, ⟨m, hm⟩, hmode, hstart⟩
      · rintro ⟨hf, -, hmode, hstart⟩
        exact hfails.mpr ⟨hf, hmode, hstart⟩

theorem edit_fails_iff (hk : a.kind = .edit) : (d.apply a).2 = some f ↔
    (a.name = some "paste-after" ∨ a.name = some "paste-before") ∧ d.state.unnamed ≠ [] ∧
      ∃ c, f = .copies c ∧ Text.copyError? d.room a.count d.state.unnamed = some c := by
  have hname (name : String) (hn : name ≠ "") : a.name.getD "" = name ↔ a.name = some name := by
    constructor
    · exact Action.name_of_getD hn
    · intro h
      rw [h, Option.getD_some]
  rw [apply_failure, perform?_edit hk, Option.bind_some, applyEdit_fails_iff, hname "paste-after" (by decide),
    hname "paste-before" (by decide)]
  rfl

theorem apply_never_fails (hm : a.kind ≠ .motion) (he : a.kind ≠ .edit) : (d.apply a).2 = none := by
  rw [apply_failure]
  unfold perform?
  cases hk : a.kind with
  | motion => exact absurd hk hm
  | edit => exact absurd hk he
  | modeChange =>
    simp only [Option.bind_some]
    unfold applyModeChange
    split
    · exact enter_failure _ _
    · rfl
  | _ => rfl

/-- An action fails just where it is stuck. -/
theorem apply_fails_iff (hs : d.area.Sound) : (d.apply a).2 = some f ↔ d.Stuck a f := by
  constructor
  · intro h
    by_cases hm : a.kind = .motion
    · obtain ⟨rfl, ⟨m, hread⟩, hmode, start, ha, hrow⟩ := (motion_fails_iff hs hm).mp h
      exact .anchor hm hread hmode ha hrow
    · by_cases he : a.kind = .edit
      · obtain ⟨hn, hreg, c, rfl, hc⟩ := (edit_fails_iff he).mp h
        exact .copies he hn hreg hc
      · rw [apply_never_fails hm he] at h
        cases h
  · intro h
    cases h with
    | @anchor m start kind motion mode anchor gone =>
      exact (motion_fails_iff hs kind).mpr ⟨rfl, ⟨m, motion⟩, mode, start, anchor, gone⟩
    | copies kind name register copies =>
      exact (edit_fails_iff kind).mpr ⟨name, register, _, rfl, copies⟩

end ModalEditing.Desk
