import ModalEditing.Proofs.Surface.Pressing
import ModalEditing.Proofs.TextArea.Calls

namespace ModalEditing

theorem EditName.mem_of_lookup {name : String} {e : EditName}
    (h : EditName.names.lookup name = some e) : (name, e) ∈ EditName.names := by
  obtain ⟨before, after, hnames, -⟩ := List.lookup_eq_some_iff.mp h
  rw [hnames]
  exact List.mem_append_right before List.mem_cons_self

theorem EntryName.mem_of_lookup {name : String} {e : EntryName}
    (h : EntryName.names.lookup name = some e) : (name, e) ∈ EntryName.names := by
  obtain ⟨before, after, hnames, -⟩ := List.lookup_eq_some_iff.mp h
  rw [hnames]
  exact List.mem_append_right before List.mem_cons_self

namespace Action

def IsEdit (a : Action) (name : String) : Prop := a.kind = .edit ∧ a.name = some name

/-- The actions that may change a text: edits, and the two mode changes that open a row. -/
def Writes (a : Action) : Prop :=
  a.kind = .edit ∨ a.kind = .modeChange ∧ (a.name = some "open-below" ∨ a.name = some "open-above")

/-- The action goes back or forth in the history of a text. -/
def Travels (a : Action) : Prop := a.IsEdit "undo" ∨ a.IsEdit "redo"

/-- The calls that an action may make of a text area, in order. -/
inductive Asks (a : Action) : List Call → Prop
  | look {cs : List Call} (h : ∀ c ∈ cs, c.looks = true) : Asks a cs
  | edit {before after : List Call} {c : Call} (hbefore : ∀ c ∈ before, c.looks = true)
      (hc : c.edits = true) (hafter : ∀ c ∈ after, c.looks = true) (hw : a.Writes) :
    Asks a (before ++ c :: after)
  | undo (h : a.IsEdit "undo") : Asks a [.undo]
  | redo (h : a.IsEdit "redo") : Asks a [.redo]

theorem name_of_getD {a : Action} {name : String} (hn : name ≠ "") (h : a.name.getD "" = name) :
    a.name = some name := by
  cases ha : a.name with
  | none =>
    rw [ha] at h
    exact absurd h.symm hn
  | some n =>
    rw [ha] at h
    exact congrArg some h

theorem Asks.nothing (a : Action) : a.Asks [] := .look (List.forall_mem_nil _)

/-- Each call looks or edits, unless the action is an undo or a redo. -/
theorem Asks.asked {a : Action} {cs : List Call} (h : a.Asks cs) :
    ∀ c ∈ cs, c.looks = true ∨ c.edits = true ∨
      c = .undo ∧ a.IsEdit "undo" ∨ c = .redo ∧ a.IsEdit "redo" := by
  intro c hmem
  cases h with
  | look h => exact .inl (h c hmem)
  | edit hbefore hc hafter hw =>
    rcases List.mem_append.mp hmem with hmem | hmem
    · exact .inl (hbefore c hmem)
    · rcases List.mem_cons.mp hmem with rfl | hmem
      · exact .inr (.inl hc)
      · exact .inl (hafter c hmem)
  | undo h => exact .inr (.inr (.inl ⟨List.mem_singleton.mp hmem, h⟩))
  | redo h => exact .inr (.inr (.inr ⟨List.mem_singleton.mp hmem, h⟩))

end Action

def Output.flag? : Output → Option Bool
  | .moment ⟨.event (.enabled b), _⟩ => some b
  | _ => none

theorem Output.quiet_append {os os' : List Output} (h : ∀ o ∈ os, o.flag? = none)
    (h' : ∀ o ∈ os', o.flag? = none) : ∀ o ∈ os ++ os', o.flag? = none := by
  intro o ho
  exact (List.mem_append.mp ho).elim (h o) (h' o)

theorem Output.quiet_line (text : String) : ∀ o ∈ [Output.line text], o.flag? = none := by
  simp [flag?]

namespace Desk
variable {d d' : Desk} {a : Action} {cs : List Call}

/-- What calls to its text area leave of a desk. The registers and the anchor may be others, and no
flag is told. -/
structure After (d : Desk) (cs : List Call) (d' : Desk) : Prop where
  area : d'.area = d.area.obeyAll cs
  state : ∃ registers, d'.state = { d.state with registers := registers }
  quiet : ∃ os, d'.outputs = d.outputs ++ os ∧ ∀ o ∈ os, o.flag? = none

theorem After.refl (d : Desk) : After d [] d where
  area := rfl
  state := ⟨d.state.registers, rfl⟩
  quiet := ⟨[], (List.append_nil _).symm, fun _ ho => absurd ho List.not_mem_nil⟩

theorem After.trans {d₁ d₂ : Desk} {cs₁ cs₂ : List Call} (h₁ : After d cs₁ d₁) (h₂ : After d₁ cs₂ d₂) :
    After d (cs₁ ++ cs₂) d₂ := by
  obtain ⟨registers₁, hstate₁⟩ := h₁.state
  obtain ⟨registers₂, hstate₂⟩ := h₂.state
  obtain ⟨os₁, hos₁, hquiet₁⟩ := h₁.quiet
  obtain ⟨os₂, hos₂, hquiet₂⟩ := h₂.quiet
  refine ⟨?_, ⟨registers₂, ?_⟩, os₁ ++ os₂, ?_, Output.quiet_append hquiet₁ hquiet₂⟩
  · rw [h₂.area, h₁.area, TextArea.obeyAll_append]
  · rw [hstate₂, hstate₁]
  · rw [hos₂, hos₁, List.append_assoc]

/-- One more call, of which only the text area knows. -/
theorem After.call (h : After d cs d') (c : Call) :
    After d (cs ++ [c]) { d' with area := d'.area.obey c } :=
  ⟨by rw [TextArea.obeyAll_concat, h.area], h.state, h.quiet⟩

theorem After.move (h : After d cs d') (l : Location) (select : Bool := false) :
    After d (cs ++ [.move l select]) (d'.move l select) := h.call (.move l select)

theorem After.delete (h : After d cs d') (x y : Location) :
    After d (cs ++ [.delete x y]) (d'.delete x y) := h.call (.delete x y)

theorem After.insert (h : After d cs d') (t : Text) (l : Location) :
    After d (cs ++ [.insert t l]) (d'.insert t l) := h.call (.insert t l)

theorem After.say (h : After d cs d') {os : List Output} (hos : ∀ o ∈ os, o.flag? = none) :
    After d cs (d'.say os) := by
  have hsay : After d' [] (d'.say os) := ⟨rfl, ⟨d'.state.registers, rfl⟩, os, rfl, hos⟩
  have hall := h.trans hsay
  rwa [List.append_nil] at hall

theorem After.report (h : After d cs d') (r : Report) : After d cs (d'.report r) :=
  h.say (by simp [Output.flag?])

theorem After.yank (h : After d cs d') (t : Text) : After d cs (d'.yank t) := by
  obtain ⟨registers, hstate⟩ := h.state
  have hyanked : After d cs { d' with state := d'.state.yank t } := by
    refine ⟨h.area, ⟨registers.set Bank.unnamed t, ?_⟩, h.quiet⟩
    rw [hstate]
    rfl
  exact hyanked.say (by simp [State.setYank, Turn.tell, Output.flag?])

theorem After.anchored (h : After d cs d') (l : Option Location) :
    After d cs { d' with anchor := l } := ⟨h.area, h.state, h.quiet⟩

theorem after_cut (d : Desk) (x y : Location) :
    After d [.range x y, .delete x y, .move x false] (d.cut x y) :=
  ((((After.refl d).call (.range x y)).yank (d.area.range x y).2).delete x y).move x

theorem after_deleteRows (h : After d [] d') (first last : Nat) :
    ∃ x y l, After d [.delete x y, .move l false] (d'.deleteRows first last) := by
  unfold deleteRows
  simp only
  split
  · exact ⟨_, _, _, (h.delete _ _).move _⟩
  · split
    · exact ⟨_, _, _, (h.delete _ _).move _⟩
    · exact ⟨_, _, _, (h.delete _ _).move _⟩

theorem after_paste (d : Desk) (after : Bool) (count : Nat) :
    After d [] (d.paste after count) ∨
      ∃ t l cs, (∀ c ∈ cs, c.looks = true) ∧ After d (.insert t l :: cs) (d.paste after count) := by
  unfold paste
  simp only
  split
  · exact .inl (After.refl d)
  · right
    split
    · split
      · exact ⟨_, _, [.move _ false], by simp [Call.looks], ((After.refl d).insert _ _).move _⟩
      · exact ⟨_, _, [.move _ false], by simp [Call.looks], ((After.refl d).insert _ _).move _⟩
    · exact ⟨_, _, [], List.forall_mem_nil _, (After.refl d).insert _ _⟩

theorem after_takeSelection (d : Desk) (remove : Bool) :
    ∃ cs, After d cs (d.takeSelection remove) ∧
      ((∀ c ∈ cs, c.looks = true) ∨ ∃ x y l, cs = [.delete x y, .move l false]) := by
  cases remove with
  | false => exact ⟨_, (((After.refl d).yank _).move _).anchored none, .inl (by simp [Call.looks])⟩
  | true =>
    exact ⟨_, ((((After.refl d).yank _).delete _ _).move _).anchored none, .inr ⟨_, _, _, rfl⟩⟩

/-- The calls of an edit: one of them edits, or none, or the edit is an undo or a redo. -/
theorem after_edit (hk : a.kind = .edit) {e : EditName}
    (hn : EditName.names.lookup (a.name.getD "") = some e) (d : Desk) (count : Nat) :
    ∃ cs, a.Asks cs ∧ After d cs (d.edit count e) := by
  have hmem := EditName.mem_of_lookup hn
  have hw : a.Writes := .inl hk
  -- The shapes that the calls of an edit have.
  have looking {cs : List Call} (h : ∀ c ∈ cs, c.looks = true) : a.Asks cs := .look h
  have editing {c : Call} {after : List Call} (hc : c.edits = true)
      (h : ∀ c ∈ after, c.looks = true) : a.Asks (c :: after) :=
    @Action.Asks.edit a [] after c (List.forall_mem_nil _) hc h hw
  have cutting (x y : Location) : a.Asks [.range x y, .delete x y, .move x false] :=
    @Action.Asks.edit a [.range x y] [.move x false] (.delete x y) (by simp [Call.looks]) rfl
      (by simp [Call.looks]) hw
  have pasting (after : Bool) : ∃ cs, a.Asks cs ∧ After d cs (d.paste after count) := by
    rcases d.after_paste after count with h | ⟨t, l, cs, hcs, h⟩
    · exact ⟨[], .nothing a, h⟩
    · exact ⟨_, editing rfl hcs, h⟩
  have taking (remove : Bool) : ∃ cs, a.Asks cs ∧ After d cs (d.takeSelection remove) := by
    obtain ⟨cs, h, hcs | ⟨x, y, l, rfl⟩⟩ := d.after_takeSelection remove
    · exact ⟨cs, looking hcs, h⟩
    · exact ⟨_, editing rfl (by simp [Call.looks]), h⟩
  cases e with
  | deleteChar => exact ⟨_, cutting _ _, d.after_cut _ _⟩
  | deleteToLineEnd => exact ⟨_, cutting _ _, d.after_cut _ _⟩
  | changeToLineEnd => exact ⟨_, cutting _ _, d.after_cut _ _⟩
  | yankLine => exact ⟨[], .nothing a, (After.refl d).yank _⟩
  | deleteLine =>
    obtain ⟨x, y, l, h⟩ := after_deleteRows ((After.refl d).yank (d.rows count).2) d.row
      (d.rows count).1
    exact ⟨_, editing rfl (by simp [Call.looks]), h⟩
  | changeLine =>
    exact ⟨_, editing rfl (by simp [Call.looks]), (((After.refl d).yank _).delete _ _).move _⟩
  | pasteAfter => exact pasting true
  | pasteBefore => exact pasting false
  | deleteSelection => exact taking true
  | changeSelection => exact taking true
  | yankSelection => exact taking false
  | undo =>
    have hname : a.name.getD "" = "undo" := by simpa [EditName.names] using hmem
    exact ⟨_, .undo ⟨hk, Action.name_of_getD (by decide) hname⟩, (After.refl d).call .undo⟩
  | redo =>
    have hname : a.name.getD "" = "redo" := by simpa [EditName.names] using hmem
    exact ⟨_, .redo ⟨hk, Action.name_of_getD (by decide) hname⟩, (After.refl d).call .redo⟩

theorem after_selectTo (h : After d [] d') (l : Location) :
    ∃ cs, (∀ c ∈ cs, c.looks = true) ∧ After d cs (d'.selectTo l).1 ∧
      ((d'.selectTo l).2 ≠ none → cs = []) := by
  have selecting (x y : Location) : ∃ cs : List Call, (∀ c ∈ cs, c.looks = true) ∧
      After d cs ((d'.move x).move y true) ∧ ((none : Option Failure) ≠ none → cs = []) :=
    ⟨_, by simp [Call.looks], (h.move x).move y true, fun hn => absurd rfl hn⟩
  unfold selectTo
  simp only
  split
  · exact selecting _ _
  · split
    · exact selecting _ _
    · split
      · exact selecting _ _
      · exact ⟨[], List.forall_mem_nil _, h, fun _ => rfl⟩

theorem after_applyMotion (d : Desk) (name : String) (count : Nat) :
    ∃ cs, (∀ c ∈ cs, c.looks = true) ∧ After d cs (d.applyMotion name count).1 ∧
      ((d.applyMotion name count).2 ≠ none → cs = []) := by
  unfold applyMotion
  split
  · exact ⟨[], List.forall_mem_nil _, After.refl d, fun _ => rfl⟩
  · simp only
    split
    · exact after_selectTo (After.refl d) _
    · exact ⟨_, by simp [Call.looks], (After.refl d).move _, fun hn => absurd rfl hn⟩

theorem after_enter (hk : a.kind = .modeChange) {e : EntryName}
    (hn : EntryName.names.lookup (a.name.getD "") = some e) (d : Desk) :
    ∃ cs, a.Asks cs ∧ After d cs (d.enter e).1 ∧ ((d.enter e).2 ≠ none → cs = []) := by
  have hmem := EntryName.mem_of_lookup hn
  have moving {d' : Desk} (h : After d [] d') (l : Location) :
      ∃ cs, a.Asks cs ∧ After d cs (d'.move l) ∧ ((none : Option Failure) ≠ none → cs = []) :=
    ⟨_, .look (by simp [Call.looks]), h.move l, fun hn => absurd rfl hn⟩
  have opening (hname : a.name = some "open-below" ∨ a.name = some "open-above") (t : Text)
      (x l : Location) : ∃ cs, a.Asks cs ∧ After d cs ((d.insert t x).move l) ∧
        ((none : Option Failure) ≠ none → cs = []) :=
    ⟨_, @Action.Asks.edit a [] [.move l false] (.insert t x) (List.forall_mem_nil _) rfl
        (by simp [Call.looks]) (.inr ⟨hk, hname⟩),
      ((After.refl d).insert t x).move l, fun hn => absurd rfl hn⟩
  cases e with
  | append => exact moving (After.refl d) _
  | lineStart => exact moving (After.refl d) _
  | lineEnd => exact moving (After.refl d) _
  | openBelow =>
    have hname : a.name.getD "" = "open-below" := by simpa [EntryName.names] using hmem
    exact opening (.inl (Action.name_of_getD (by decide) hname)) _ _ _
  | openAbove =>
    have hname : a.name.getD "" = "open-above" := by simpa [EntryName.names] using hmem
    exact opening (.inr (Action.name_of_getD (by decide) hname)) _ _ _
  | visual => exact moving ((After.refl d).anchored _) _
  | visualLine =>
    obtain ⟨cs, hcs, h, hfail⟩ := after_selectTo ((After.refl d).anchored (some ⟨d.row, 0⟩))
      ⟨d.row, (d.area.line d.row).length⟩
    exact ⟨cs, .look hcs, h, hfail⟩
  | normal => exact moving ((After.refl d).anchored none) _

/-- To look for a pattern moves the cursor at most. -/
theorem find_desk (d : Desk) (pattern : String) (direction : Direction) :
    ∃ cs, (∀ c ∈ cs, c.looks = true) ∧
      (d.find pattern direction).1 = { d with area := d.area.obeyAll cs } := by
  unfold find
  simp only
  split
  · rename_i l _
    exact ⟨[.move l false], by simp [Call.looks], rfl⟩
  · exact ⟨[], List.forall_mem_nil _, rfl⟩

theorem after_find (d : Desk) (pattern : String) (direction : Direction) :
    ∃ cs, (∀ c ∈ cs, c.looks = true) ∧ After d cs (d.find pattern direction).1 := by
  obtain ⟨cs, hcs, hfind⟩ := d.find_desk pattern direction
  rw [hfind]
  exact ⟨cs, hcs, rfl, (After.refl d).state, (After.refl d).quiet⟩

theorem after_applySearch (d : Desk) (name pattern : Option String) :
    ∃ cs, (∀ c ∈ cs, c.looks = true) ∧ After d cs (d.applySearch name pattern) := by
  unfold applySearch
  split
  · split
    · exact ⟨[], List.forall_mem_nil _, (After.refl d).say (by simp [Output.flag?])⟩
    · exact ⟨[], List.forall_mem_nil _, After.refl d⟩
  · exact ⟨[], List.forall_mem_nil _, After.refl d⟩
  · exact d.after_find _ _

theorem after_perform (d : Desk) (a : Action) {r : Desk × Option Failure}
    (hr : d.perform? a = some r) :
    ∃ cs, a.Asks cs ∧ After d cs r.1 ∧ (r.2 ≠ none → cs = []) := by
  cases hk : a.kind with
  | none => simp [perform?, hk] at hr
  | register => simp [perform?, hk] at hr
  | motion =>
    obtain rfl := Option.some.inj ((perform?_motion hk).symm.trans hr)
    obtain ⟨cs, hcs, h⟩ := d.after_applyMotion (a.name.getD "") a.count
    exact ⟨cs, .look hcs, h⟩
  | search =>
    obtain rfl : (d.applySearch a.name a.pattern, none) = r := by simpa [perform?, hk] using hr
    obtain ⟨cs, hcs, h⟩ := d.after_applySearch a.name a.pattern
    exact ⟨cs, .look hcs, h, fun hn => absurd rfl hn⟩
  | modeChange =>
    obtain rfl := Option.some.inj ((perform?_modeChange hk).symm.trans hr)
    unfold applyModeChange
    split
    · rename_i e hn
      exact after_enter hk hn d
    · exact ⟨[], .nothing a, After.refl d, fun _ => rfl⟩
  | edit =>
    obtain rfl := Option.some.inj ((perform?_edit hk).symm.trans hr)
    unfold applyEdit
    split
    · exact ⟨[], .nothing a, After.refl d, fun _ => rfl⟩
    · rename_i e hn
      split
      · exact ⟨[], .nothing a, After.refl d, fun _ => rfl⟩
      · obtain ⟨cs, hcs, h⟩ := after_edit hk hn d a.count
        exact ⟨cs, hcs, h, fun hn => absurd rfl hn⟩

/-- What carrying out an action comes to: calls that it may make, and afterwards an area that takes
typing in insert mode alone. An action that fails makes no call. -/
structure Applied (d : Desk) (a : Action) (cs : List Call) (r : Desk × Option Failure) : Prop where
  asks : a.Asks cs
  area : r.1.area = { d.area.obeyAll cs with readOnly := r.1.area.readOnly }
  state : ∃ registers, r.1.state = { d.state with registers := registers }
  quiet : ∃ os, r.1.outputs = d.outputs ++ os ∧ ∀ o ∈ os, o.flag? = none
  readOnly : r.1.area.readOnly =
    if r.2 = none ∧ a.kind ≠ .none ∧ a.kind ≠ .register then decide (d.state.mode ≠ .insert)
    else d.area.readOnly
  failed : r.2 ≠ none → cs = []

theorem applied (d : Desk) (a : Action) : ∃ cs, Applied d a cs (d.apply a) := by
  cases hp : (d.begun a).perform? a with
  | none =>
    have hkind : a.kind = .none ∨ a.kind = .register := by
      cases hk : a.kind <;> simp_all [perform?]
    have happly : d.apply a = (d, none) := by
      unfold begun at hp
      simp only [apply, hp]
    rw [happly]
    refine ⟨[], .nothing a, rfl, (After.refl d).state, (After.refl d).quiet, ?_, fun _ => rfl⟩
    rw [if_neg]
    rintro ⟨-, hnone, hregister⟩
    exact hkind.elim hnone hregister
  | some r =>
    have hkind : a.kind ≠ .none ∧ a.kind ≠ .register := by
      constructor <;> intro hk <;> simp [perform?, hk] at hp
    obtain ⟨d', f⟩ := r
    obtain ⟨cs, hasks, hperform, hfail⟩ := (d.begun a).after_perform a hp
    have hafter : After d cs d' := ((After.refl d).report _).trans hperform
    have hleft := hafter.report (.leave (actionSpan a) [] (f.map Failure.message))
    unfold begun at hp
    cases f with
    | some f =>
      have happly : d.apply a = (d'.report (.leave (actionSpan a) [] (some f.message)), some f) := by
        simp only [apply, hp]
      -- What fails has made no call, so the text area is the one from before.
      obtain rfl : cs = [] := hfail (by simp)
      have harea : (d'.report (.leave (actionSpan a) [] (some f.message))).area = d.area := hleft.area
      rw [happly]
      refine ⟨[], hasks, ?_, hleft.state, hleft.quiet, ?_, fun _ => rfl⟩
      · rw [harea]
        rfl
      · rw [if_neg (by simp), harea]
    | none =>
      have happly : d.apply a = ({ d'.report (.leave (actionSpan a) [] none) with
          area.readOnly := decide (d'.state.mode ≠ .insert) }, none) := by
        simp only [apply, hp]
        rfl
      obtain ⟨registers, hstate⟩ := hafter.state
      rw [happly]
      refine ⟨cs, hasks, ?_, hleft.state, hleft.quiet, ?_, fun hn => absurd rfl hn⟩
      · rw [← hafter.area]
        rfl
      · rw [if_pos ⟨rfl, hkind⟩, hstate]

/-- Each edit either is refused and does nothing, or is carried out. -/
theorem apply_edit_cases (hk : a.kind = .edit) {e : EditName}
    (hn : EditName.names.lookup (a.name.getD "") = some e) :
    (d.refusal? a.count e = none ∧ ∃ os : List Output, d.apply a = ({ (d.begun a).edit a.count e with
        outputs := os, area.readOnly := decide (((d.begun a).edit a.count e).state.mode ≠ .insert) },
          none)) ∨
      ∃ (f : Text.CopyError) (os : List Output), d.refusal? a.count e = some f ∧
        d.apply a = ({ d with outputs := os }, some (.copies f)) := by
  cases hr : d.refusal? a.count e with
  | none => exact .inl ⟨rfl, apply_edit hk hn hr⟩
  | some f =>
    have hr' : (d.begun a).refusal? a.count e = some f := hr
    have hp : (d.begun a).perform? a = some (d.begun a, some (.copies f)) := by
      simp only [perform?_edit hk, applyEdit, hn, hr']
    unfold begun at hp
    have happly : ∃ os : List Output, d.apply a = ({ d with outputs := os }, some (.copies f)) := by
      rw [apply, hp]
      exact ⟨_, rfl⟩
    obtain ⟨os, happly⟩ := happly
    exact .inr ⟨f, os, rfl, happly⟩

/-- An edit of another name does nothing. -/
theorem apply_edit_unknown (hk : a.kind = .edit)
    (hn : EditName.names.lookup (a.name.getD "") = none) :
    ∃ os : List Output, d.apply a = ({ d with
      outputs := os, area.readOnly := decide (d.state.mode ≠ .insert) }, none) := by
  have hp : (d.begun a).perform? a = some (d.begun a, none) := by
    simp only [perform?_edit hk, applyEdit, hn]
  obtain ⟨os, happly⟩ := apply_of_perform hp
  exact ⟨os, happly⟩

end Desk
end ModalEditing
