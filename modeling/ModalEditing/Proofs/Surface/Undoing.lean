import ModalEditing.Proofs.Surface.Asking

namespace ModalEditing

namespace Action
variable {a : Action} {cs : List Call}

theorem Asks.looks_or_edits (h : a.Asks cs) (ht : ¬ a.Travels) :
    ∀ c ∈ cs, c.looks = true ∨ c.edits = true := by
  intro c hmem
  rcases h.asked c hmem with hc | hc | ⟨-, hundo⟩ | ⟨-, hredo⟩
  · exact .inl hc
  · exact .inr hc
  · exact absurd (.inl hundo) ht
  · exact absurd (.inr hredo) ht

theorem countP_edits_of_looks (h : ∀ c ∈ cs, c.looks = true) : cs.countP Call.edits = 0 := by
  apply List.countP_eq_zero.mpr
  intro c hc
  simp [Call.edits_of_looks (h c hc)]

/-- An action asks for at most one edit, and only one that writes asks for any. -/
theorem Asks.countP_edits (h : a.Asks cs) :
    cs.countP Call.edits ≤ 1 ∧ (cs.countP Call.edits ≠ 0 → a.Writes) := by
  cases h with
  | look h =>
    have hzero := countP_edits_of_looks h
    exact ⟨by omega, fun hne => absurd hzero hne⟩
  | @edit before after c hbefore hc hafter hw =>
    have hb := countP_edits_of_looks hbefore
    have ha := countP_edits_of_looks hafter
    have hone : (before ++ c :: after).countP Call.edits = 1 := by
      rw [List.countP_append, List.countP_cons_of_pos hc, hb, ha]
    exact ⟨by omega, fun _ => hw⟩
  | undo h => exact ⟨Nat.zero_le _, fun hne => absurd rfl hne⟩
  | redo h => exact ⟨Nat.zero_le _, fun hne => absurd rfl hne⟩

theorem IsEdit.writes {name : String} (h : a.IsEdit name) : a.Writes := .inl h.1

end Action

namespace Desk
variable {d d' : Desk} {a : Action} {cs : List Call}

/-- How often carrying out an action inserts or deletes. -/
def edits (d : Desk) (a : Action) : ℕ :=
  ((d.apply a).1.area.calls.drop d.area.calls.length).countP Call.edits

theorem Applied.calls {r : Desk × Option Failure} (h : Applied d a cs r) :
    r.1.area.calls = d.area.calls ++ cs := by
  rw [h.area]
  exact TextArea.calls_obeyAll d.area cs

theorem Applied.edits_eq (h : Applied d a cs (d.apply a)) : d.edits a = cs.countP Call.edits := by
  rw [edits, h.calls, List.drop_left]

theorem Applied.timeline {r : Desk × Option Failure} (h : Applied d a cs r) :
    r.1.area.timeline = (d.area.obeyAll cs).timeline := by
  rw [h.area]
  rfl

/-- An action that neither undoes nor redoes adds a text to the timeline for each of its edits. -/
theorem timeline_apply (d : Desk) (ht : ¬ a.Travels) :
    ∃ ts, ts.length = d.edits a ∧ (d.apply a).1.area.timeline = ts ++ d.area.timeline := by
  obtain ⟨cs, h⟩ := d.applied a
  rw [h.edits_eq, h.timeline]
  exact TextArea.timeline_obeyAll (h.asks.looks_or_edits ht)

theorem text_of_timeline {x y : TextArea} (h : x.timeline = y.timeline) : x.text = y.text :=
  (List.cons.inj h).1

theorem writes_of_text_ne (h : (d.apply a).1.area.text ≠ d.area.text) : a.Writes := by
  by_cases ht : a.Travels
  · exact ht.elim Action.IsEdit.writes Action.IsEdit.writes
  · obtain ⟨ts, hlen, htimeline⟩ := d.timeline_apply ht
    obtain ⟨cs, happlied⟩ := d.applied a
    apply happlied.asks.countP_edits.2
    rw [← happlied.edits_eq, ← hlen]
    intro hzero
    obtain rfl := List.length_eq_zero_iff.mp hzero
    exact h (text_of_timeline htimeline)

/-- Carries out actions one after another, up to the first that fails. Before each of them the
interpreter may have come to any state. -/
def applyAll (d : Desk) : List (State × Action) → Except Failure Desk
  | [] => .ok d
  | (s, a) :: rest =>
    match ({ d with state := s } : Desk).apply a with
    | (d', none) => d'.applyAll rest
    | (_, some f) => .error f

def edited (d : Desk) : List (State × Action) → ℕ
  | [] => 0
  | (s, a) :: rest =>
    let now : Desk := { d with state := s }
    (if now.edits a = 0 then 0 else 1) + edited (now.apply a).1 rest

theorem applyAll_cons {s : State} {rest : List (State × Action)}
    (h : d.applyAll ((s, a) :: rest) = .ok d') :
    (({ d with state := s } : Desk).apply a).2 = none ∧
      (({ d with state := s } : Desk).apply a).1.applyAll rest = .ok d' := by
  rw [applyAll] at h
  split at h
  · rename_i d₁ happly
    rw [happly]
    exact ⟨rfl, h⟩
  · cases h

theorem timeline_applyAll {steps : List (State × Action)} (h : d.applyAll steps = .ok d')
    (ht : ∀ step ∈ steps, ¬ step.2.Travels) :
    ∃ ts, ts.length = d.edited steps ∧ d'.area.timeline = ts ++ d.area.timeline := by
  induction steps generalizing d with
  | nil =>
    obtain rfl := Except.ok.inj h
    exact ⟨[], rfl, rfl⟩
  | cons step rest ih =>
    obtain ⟨s, a⟩ := step
    obtain ⟨-, hrest⟩ := applyAll_cons h
    -- Each action puts at most one text before those of the actions before it.
    obtain ⟨ts, hlen, hts⟩ := ih hrest fun step hs => ht step (List.mem_cons_of_mem _ hs)
    obtain ⟨us, hlen', hus⟩ := timeline_apply { d with state := s } (ht (s, a) List.mem_cons_self)
    have hle : us.length ≤ 1 := by
      obtain ⟨cs, happlied⟩ := applied { d with state := s } a
      rw [hlen', happlied.edits_eq]
      exact happlied.asks.countP_edits.1
    refine ⟨ts ++ us, ?_, ?_⟩
    · have hone : us.length = if edits { d with state := s } a = 0 then 0 else 1 := by
        rw [← hlen']
        split <;> omega
      rw [List.length_append, hlen, hone, edited, Nat.add_comm]
    · rw [hts, hus, List.append_assoc]

/-- Undo takes a text from the timeline and keeps it for redo. -/
theorem apply_undo (h : a.IsEdit "undo") {t : Text} {ts : List Text} (htl : d.area.timeline = t :: ts)
    (hn : ts ≠ []) :
    (d.apply a).2 = none ∧ (d.apply a).1.area.timeline = ts ∧
      (d.apply a).1.area.undone = t :: d.area.undone := by
  have hlookup : EditName.names.lookup (a.name.getD "") = some .undo := by
    rw [h.2]
    rfl
  obtain ⟨os, happly⟩ := apply_edit (d := d) h.1 hlookup rfl
  rw [happly]
  exact ⟨rfl, TextArea.timeline_undo htl hn⟩

theorem apply_redo (h : a.IsEdit "redo") {t : Text} {ts : List Text} (hu : d.area.undone = t :: ts) :
    (d.apply a).2 = none ∧ (d.apply a).1.area.timeline = t :: d.area.timeline ∧
      (d.apply a).1.area.undone = ts := by
  have hlookup : EditName.names.lookup (a.name.getD "") = some .redo := by
    rw [h.2]
    rfl
  obtain ⟨os, happly⟩ := apply_edit (d := d) h.1 hlookup rfl
  rw [happly]
  exact ⟨rfl, TextArea.timeline_redo hu⟩

theorem applyAll_of_apply {s : State} {rest : List (State × Action)}
    (h : (({ d with state := s } : Desk).apply a).2 = none) :
    d.applyAll ((s, a) :: rest) = (({ d with state := s } : Desk).apply a).1.applyAll rest := by
  rw [applyAll]
  split
  · rename_i d₁ happly
    rw [happly]
  · rename_i d₁ f happly
    rw [happly] at h
    cases h

/-- As many undos as there are texts before the rest of a timeline leave the rest. -/
theorem applyAll_undo {us : List (State × Action)} (hus : ∀ u ∈ us, u.2.IsEdit "undo")
    {ts rest : List Text} (hlen : us.length = ts.length) (htl : d.area.timeline = ts ++ rest)
    (hn : rest ≠ []) :
    ∃ d', d.applyAll us = .ok d' ∧ d'.area.timeline = rest ∧
      d'.area.undone = ts.reverse ++ d.area.undone := by
  induction us generalizing d ts with
  | nil =>
    obtain rfl : ts = [] := List.length_eq_zero_iff.mp hlen.symm
    exact ⟨d, rfl, htl, rfl⟩
  | cons u us ih =>
    obtain ⟨s, a⟩ := u
    obtain ⟨t, ts, rfl⟩ : ∃ t ts', ts = t :: ts' := List.exists_cons_of_length_pos (by
      rw [← hlen]
      exact Nat.succ_pos _)
    -- There is a text to go back to as long as the rest of the timeline is not empty.
    have hne : ts ++ rest ≠ [] := fun h => hn (List.append_eq_nil_iff.mp h).2
    obtain ⟨hnone, htl', hundone⟩ := apply_undo (d := { d with state := s })
      (hus (s, a) List.mem_cons_self) htl hne
    obtain ⟨d', happly, hfinal, hundone'⟩ := ih (fun u hu => hus u (List.mem_cons_of_mem _ hu))
      (Nat.succ.inj hlen) htl'
    refine ⟨d', ?_, hfinal, ?_⟩
    · rw [applyAll_of_apply hnone, happly]
    · rw [hundone', hundone, List.reverse_cons, List.append_assoc, List.singleton_append]

/-- As many redos as texts were undone bring them all back. -/
theorem applyAll_redo {rs : List (State × Action)} (hrs : ∀ r ∈ rs, r.2.IsEdit "redo")
    {ts rest : List Text} (hlen : rs.length = ts.length) (hu : d.area.undone = ts ++ rest) :
    ∃ d', d.applyAll rs = .ok d' ∧ d'.area.timeline = ts.reverse ++ d.area.timeline := by
  induction rs generalizing d ts with
  | nil =>
    obtain rfl : ts = [] := List.length_eq_zero_iff.mp hlen.symm
    exact ⟨d, rfl, rfl⟩
  | cons r rs ih =>
    obtain ⟨s, a⟩ := r
    obtain ⟨t, ts, rfl⟩ : ∃ t ts', ts = t :: ts' := List.exists_cons_of_length_pos (by
      rw [← hlen]
      exact Nat.succ_pos _)
    obtain ⟨hnone, htl, hu'⟩ := apply_redo (d := { d with state := s })
      (hrs (s, a) List.mem_cons_self) hu
    obtain ⟨d', happly, hfinal⟩ := ih (fun r hr => hrs r (List.mem_cons_of_mem _ hr))
      (Nat.succ.inj hlen) hu'
    refine ⟨d', ?_, ?_⟩
    · rw [applyAll_of_apply hnone, happly]
    · rw [hfinal, htl, List.reverse_cons, List.append_assoc, List.singleton_append]

/-- Every action is at most one step of undo. It inserts or deletes at most once, and changes the text
only if it is an edit or opens a row. However many actions are carried out without an undo or a redo
among them, and whatever state the interpreter is in at each of them: if so many of them insert or
delete, then so many undos give back the first text, and so many redos after that the last one. -/
theorem one_undo_step (d : Desk) :
    (∀ a : Action, d.edits a ≤ 1 ∧ ((d.apply a).1.area.text ≠ d.area.text → a.Writes)) ∧
    ∀ (steps : List (State × Action)) (d' : Desk), (∀ step ∈ steps, ¬ step.2.Travels) →
      d.applyAll steps = .ok d' →
      ∀ us rs : List (State × Action), us.length = d.edited steps → rs.length = d.edited steps →
        (∀ u ∈ us, u.2.IsEdit "undo") → (∀ r ∈ rs, r.2.IsEdit "redo") →
        ∃ first last, d'.applyAll us = .ok first ∧ first.area.text = d.area.text ∧
          first.applyAll rs = .ok last ∧ last.area.text = d'.area.text := by
  constructor
  · intro a
    refine ⟨?_, writes_of_text_ne⟩
    obtain ⟨cs, h⟩ := d.applied a
    rw [h.edits_eq]
    exact h.asks.countP_edits.1
  · intro steps d' ht h us rs hus hrs hundo hredo
    obtain ⟨ts, hlen, htl⟩ := timeline_applyAll h ht
    have hne : d.area.timeline ≠ [] := List.cons_ne_nil _ _
    obtain ⟨first, hfirst, htl', hundone⟩ := applyAll_undo hundo (hus.trans hlen.symm) htl hne
    have hlen' : rs.length = ts.reverse.length := by rw [List.length_reverse, hrs, hlen]
    obtain ⟨last, hlast, htl''⟩ := applyAll_redo hredo hlen' hundone
    refine ⟨first, last, hfirst, text_of_timeline htl', hlast, text_of_timeline ?_⟩
    rw [htl'', List.reverse_reverse, htl', htl]

/-- A new desk on one row, and steps that delete two of its characters, pass a word, put back in insert
mode what was deleted, and open a row: three of the four edit. -/
theorem three_undo_steps :
    let d : Desk := { state := {}, area := { text := ['a', 'b', 'c'] } }
    let edit (name : String) : State × Action := ({ d.state with mode := .insert }, { kind := .edit, name })
    let steps : List (State × Action) :=
      [({}, { kind := .edit, name := some "delete-char", count := 2 }),
        ({}, { kind := .motion, name := some "move-word-forward" }),
        ({ d.state.yank ['x'] with mode := .insert }, { kind := .edit, name := some "paste-after" }),
        ({}, .modeChange "open-below")]
    ∃ d' first last, d.applyAll steps = .ok d' ∧ d'.area.text = ['c', 'x', '\n'] ∧
      d'.applyAll (List.replicate 3 (edit "undo")) = .ok first ∧ first.area.text = ['a', 'b', 'c'] ∧
      first.applyAll (List.replicate 3 (edit "redo")) = .ok last ∧ last.area.text = ['c', 'x', '\n'] := by
  intro d edit steps
  obtain ⟨-, hall⟩ := one_undo_step d
  have hsteps : ∀ step ∈ steps, ¬ step.2.Travels := by
    simp [steps, Action.Travels, Action.IsEdit, Action.modeChange]
  have hedited : d.edited steps = 3 := by decide +kernel
  have htext : (d.applyAll steps).toOption.map (fun d' => d'.area.text) = some ['c', 'x', '\n'] := by
    decide +kernel
  cases happly : d.applyAll steps with
  | error f =>
    rw [happly] at htext
    cases htext
  | ok d' =>
    rw [happly] at htext
    have htext : d'.area.text = ['c', 'x', '\n'] := Option.some.inj htext
    have hlen (name : String) : (List.replicate 3 (edit name)).length = d.edited steps := by
      rw [hedited, List.length_replicate]
    have hedits (name : String) : ∀ step ∈ List.replicate 3 (edit name), step.2.IsEdit name := by
      intro step hstep
      rw [List.eq_of_mem_replicate hstep]
      exact ⟨rfl, rfl⟩
    obtain ⟨first, last, hundo, hfirst, hredo, hlast⟩ := hall steps d' hsteps happly
      (List.replicate 3 (edit "undo")) (List.replicate 3 (edit "redo")) (hlen "undo") (hlen "redo")
      (hedits "undo") (hedits "redo")
    exact ⟨d', first, last, rfl, htext, hundo, hfirst, hredo, hlast.trans htext⟩

end Desk
end ModalEditing
