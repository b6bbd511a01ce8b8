import ModalEditing.Proofs.TextArea.Location

namespace ModalEditing

namespace Call

def edits : Call → Bool
  | .insert _ _ | .delete _ _ => true
  | _ => false

def looks : Call → Bool
  | .move _ _ | .range _ _ => true
  | _ => false

theorem edits_of_looks {c : Call} (h : c.looks = true) : c.edits = false := by
  cases c <;> simp_all [looks, edits]

end Call

namespace TextArea
variable {a : TextArea} {c : Call} {cs : List Call}

def obey (a : TextArea) : Call → TextArea
  | .move l select => a.moveCursor l select
  | .moveOutside row col select =>
    (a.note (.moveOutside row col select)).place ⟨row.toNat, col.toNat⟩ select
  | .range x y => (a.range x y).1
  | .delete x y => a.delete x y
  | .insert t l => a.insert t l
  | .undo => a.undo
  | .redo => a.redo
  | .type t => a.typeText t
  | .focus => a.focus

def obeyAll (a : TextArea) (cs : List Call) : TextArea := cs.foldl obey a

theorem obeyAll_append (a : TextArea) (cs cs' : List Call) :
    a.obeyAll (cs ++ cs') = (a.obeyAll cs).obeyAll cs' := List.foldl_append

theorem obeyAll_concat (a : TextArea) (cs : List Call) (c : Call) :
    a.obeyAll (cs ++ [c]) = (a.obeyAll cs).obey c := obeyAll_append a cs [c]

theorem calls_obey (a : TextArea) (c : Call) : (a.obey c).calls = a.calls ++ [c] := by
  cases c with
  | undo => cases hd : a.done <;> simp [obey, undo, note, setText, hd]
  | redo => cases hu : a.undone <;> simp [obey, redo, note, setText, hu]
  | type t => cases hr : a.readOnly <;> simp [obey, typeText, note, edit, setText, hr]
  | _ => rfl

theorem calls_obeyAll (a : TextArea) (cs : List Call) : (a.obeyAll cs).calls = a.calls ++ cs := by
  induction cs generalizing a with
  | nil => exact (List.append_nil _).symm
  | cons c cs ih =>
    have hrest := ih (a.obey c)
    rw [calls_obey, List.append_assoc] at hrest
    exact hrest

theorem readOnly_obey (a : TextArea) (c : Call) : (a.obey c).readOnly = a.readOnly := by
  cases c with
  | undo => cases hd : a.done <;> simp [obey, undo, note, setText, hd]
  | redo => cases hu : a.undone <;> simp [obey, redo, note, setText, hu]
  | type t => cases hr : a.readOnly <;> simp [obey, typeText, note, edit, setText, hr]
  | _ => rfl

theorem readOnly_obeyAll (a : TextArea) (cs : List Call) :
    (a.obeyAll cs).readOnly = a.readOnly := by
  induction cs generalizing a with
  | nil => rfl
  | cons c cs ih => exact (ih (a.obey c)).trans (a.readOnly_obey c)

/-- The cursor and both ends of the selection are in the text. -/
structure Sound (a : TextArea) : Prop where
  cursor : a.cursor.Within a.lines
  start : a.selection.start.Within a.lines
  stop : a.selection.stop.Within a.lines

theorem lines_ne_nil (a : TextArea) : a.lines ≠ [] := Text.lines_ne_nil a.text

theorem sound_fresh (t : Text) (readOnly : Bool) : Sound { text := t, readOnly := readOnly } where
  cursor := Location.within_start (Text.lines_ne_nil t)
  start := Location.within_start (Text.lines_ne_nil t)
  stop := Location.within_start (Text.lines_ne_nil t)

theorem sound_setText (a : TextArea) (t : Text) : (a.setText t).Sound where
  cursor := Location.within_clampTo (Text.lines_ne_nil t) _
  start := Location.within_clampTo (Text.lines_ne_nil t) _
  stop := Location.within_clampTo (Text.lines_ne_nil t) _

theorem Sound.place (h : a.Sound) (l : Location) (select : Bool) : (a.place l select).Sound := by
  have hl : (clampTo a.lines l).Within a.lines := Location.within_clampTo a.lines_ne_nil l
  refine ⟨hl, ?_, hl⟩
  cases select with
  | false => exact hl
  | true => exact h.start

/-- What is typed lies in the text, and so does the cursor behind it. -/
theorem Sound.typeText (h : a.Sound) (t : Text) : (a.typeText t).Sound := by
  have hlocate (t' : Text) (n : Nat) : (locate t' n).Within (Text.lines t') := by
    rw [Location.locate_eq_endOf]
    have hend := (Location.endOf_within (t'.take n) (t'.drop n)).1
    rwa [List.take_append_drop] at hend
  simp only [TextArea.typeText]
  split
  · exact ⟨h.cursor, h.start, h.stop⟩
  · exact ⟨hlocate _ _, hlocate _ _, hlocate _ _⟩

theorem Sound.obey (h : a.Sound) (c : Call) : (a.obey c).Sound := by
  have hnote (c : Call) : (a.note c).Sound := ⟨h.cursor, h.start, h.stop⟩
  cases c with
  | move l select => exact (hnote _).place l select
  | moveOutside row col select => exact (hnote _).place _ select
  | range x y => exact hnote _
  | delete x y => exact sound_setText _ _
  | insert t l => exact sound_setText _ _
  | undo =>
    simp only [TextArea.obey, undo]
    split
    · exact hnote _
    · exact sound_setText _ _
  | redo =>
    simp only [TextArea.obey, redo]
    split
    · exact hnote _
    · exact sound_setText _ _
  | type t => exact h.typeText t
  | focus => exact hnote _

theorem Sound.obeyAll (h : a.Sound) (cs : List Call) : (a.obeyAll cs).Sound := by
  induction cs generalizing a with
  | nil => exact h
  | cons c cs ih => exact ih (h.obey c)

/-- The text and the earlier ones that undo goes back to, the latest first. -/
def timeline (a : TextArea) : List Text := a.text :: a.done

theorem timeline_of_looks (h : c.looks = true) :
    (a.obey c).timeline = a.timeline ∧ (a.obey c).undone = a.undone := by
  cases c <;> first | exact ⟨rfl, rfl⟩ | cases h

theorem timeline_of_edits (h : c.edits = true) : ∃ t, (a.obey c).timeline = t :: a.timeline := by
  cases c <;> first | exact ⟨_, rfl⟩ | cases h

/-- Reading calls and edits add as many texts to the timeline as there are edits among them. -/
theorem timeline_obeyAll (h : ∀ c ∈ cs, c.looks = true ∨ c.edits = true) :
    ∃ ts, ts.length = cs.countP Call.edits ∧ (a.obeyAll cs).timeline = ts ++ a.timeline := by
  induction cs generalizing a with
  | nil => exact ⟨[], rfl, rfl⟩
  | cons c cs ih =>
    obtain ⟨ts, hlen, hts⟩ := ih (a := a.obey c) fun c hc => h c (List.mem_cons_of_mem _ hc)
    have hall : (a.obeyAll (c :: cs)).timeline = ts ++ (a.obey c).timeline := hts
    rcases h c List.mem_cons_self with hc | hc
    · refine ⟨ts, ?_, ?_⟩
      · rw [List.countP_cons_of_neg (by simp [Call.edits_of_looks hc]), hlen]
      · rw [hall, (timeline_of_looks hc).1]
    · obtain ⟨t, ht⟩ := timeline_of_edits (a := a) hc
      refine ⟨ts ++ [t], ?_, ?_⟩
      · rw [List.countP_cons_of_pos hc, List.length_append, hlen, List.length_singleton]
      · rw [hall, ht, List.append_assoc, List.singleton_append]

theorem timeline_undo {t : Text} {ts : List Text} (h : a.timeline = t :: ts) (hn : ts ≠ []) :
    a.undo.timeline = ts ∧ a.undo.undone = t :: a.undone := by
  obtain ⟨rfl, rfl⟩ : a.text = t ∧ a.done = ts := List.cons.inj h
  obtain ⟨u, us, hd⟩ := List.exists_cons_of_ne_nil hn
  simp [undo, note, setText, timeline, hd]

theorem timeline_redo {t : Text} {ts : List Text} (h : a.undone = t :: ts) :
    a.redo.timeline = t :: a.timeline ∧ a.redo.undone = ts := by
  simp [redo, note, setText, timeline, h]

end TextArea
end ModalEditing
