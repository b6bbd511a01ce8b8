import ModalEditing.Proofs.Interpreter.Announcement
import ModalEditing.Proofs.Journal.Reports
import ModalEditing.Station

namespace ModalEditing

def Notice.report? : Notice → Option Report
  | .report r => some r
  | .event _ => none

namespace Turn
variable {t : Turn}

theorem reports_eq (t : Turn) : t.reports = t.moments.filterMap fun m => m.notice.report? := rfl

theorem reports_tell (t : Turn) (ns : List Notice) :
    (t.tell ns).reports = t.reports ++ ns.filterMap Notice.report? := by
  rw [reports_eq, reports_eq, tell, List.filterMap_append, List.filterMap_map]
  rfl

theorem reports_publish (t : Turn) (before : State) : (t.publish before).reports = t.reports := by
  rw [publish]
  split
  · rfl
  · rw [reports_tell]
    exact List.append_nil _

/-- What is pending fits the mode, now and in every moment so far. -/
structure Fits (t : Turn) : Prop where
  state : t.state.Fits
  moments : ∀ m ∈ t.moments, m.state.Fits

theorem Fits.start {s : State} (h : s.Fits) : Fits ⟨s, []⟩ := ⟨h, List.forall_mem_nil _⟩

theorem Fits.tell (h : t.Fits) (ns : List Notice) : (t.tell ns).Fits := by
  refine ⟨h.state, List.forall_mem_append.mpr ⟨h.moments, fun m hm => ?_⟩⟩
  obtain ⟨n, -, rfl⟩ := List.mem_map.mp hm
  exact h.state

theorem Fits.become (h : t.Fits) {s : State} (hs : s.Fits) : (t.become s).Fits :=
  Fits.tell (t := { t with state := s }) ⟨hs, h.moments⟩ _

theorem Fits.publish (h : t.Fits) (before : State) : (t.publish before).Fits := by
  rw [Turn.publish]
  split
  · exact h
  · exact h.tell _

end Turn

namespace State
variable {s : State} {t : Keymap} {k : Key}

/-- Events that tell of a change can always be said to the interpreter's logger. -/
theorem sayable_of_changes {old new : State} {r : Report}
    (h : r ∈ (old.changes new).filterMap Notice.report?) : r.Sayable logger := by
  have hbool (b : Bool) : ∃ text, (Json.bool b).plain = .ok text := by cases b <;> exact ⟨_, rfl⟩
  rw [changes, List.filterMap_append, List.mem_append] at h
  rcases h with h | h <;> split at h
  · cases h
  · obtain rfl := List.mem_singleton.mp h
    obtain ⟨text, htext⟩ := hbool new.enabled
    exact .event (by decide +kernel) (.cons (b := ("enabled", text)) ⟨rfl, htext⟩ .nil)
  · cases h
  · obtain rfl := List.mem_singleton.mp h
    exact .event (by decide +kernel)
      (.cons (b := ("from", old.mode.name)) ⟨rfl, Journal.plain_string _⟩
        (.cons (b := ("mode", new.mode.name)) ⟨rfl, Journal.plain_string _⟩ .nil))

theorem keySpan_worded (s : State) (k : Key) : ∃ texts, Journal.Worded (s.keySpan k).fields texts :=
  ⟨[("key", k.token), ("mode", s.mode.name)],
    .cons ⟨rfl, Journal.plain_string _⟩ (.cons ⟨rfl, Journal.plain_string _⟩ .nil)⟩

/-- The handling of a key is reported as one span, with events inside it. -/
theorem reports_handle (hon : s.enabled = true) (t : Keymap) (k : Key) :
    ∃ learnt texts failure inner, Journal.Worded learnt texts ∧ (∀ r ∈ inner, r.Sayable logger) ∧
      (s.handle t k).1.reports = (s.keySpan k).around learnt failure inner := by
  have hinner (s' : State) : ∀ r ∈ (s.changes s').filterMap Notice.report?, r.Sayable logger :=
    fun r hr => sayable_of_changes hr
  simp only [handle, hon, Bool.not_true, Bool.false_eq_true, if_false]
  rcases s.readKey t k with ⟨s', e | a⟩
  · refine ⟨[], [], some e.message, _, .nil, hinner s', ?_⟩
    simp only [Turn.become, Turn.reports_tell]
    rfl
  · have hlearnt : Journal.Worded [("action", .string (a.name.getD a.kind.name))]
        [("action", a.name.getD a.kind.name)] := .cons ⟨rfl, Journal.plain_string _⟩ .nil
    refine ⟨_, _, none, _, hlearnt, hinner s', ?_⟩
    simp only [Turn.reports_publish]
    split <;> simp only [Turn.become, Turn.reports_tell]
    · rfl
    · exact List.append_nil _

theorem Fits.handle (h : s.Fits) (t : Keymap) (k : Key) : (s.handle t k).1.Fits := by
  cases hon : s.enabled with
  | false =>
    rw [handle_of_disabled hon]
    exact .start h
  | true =>
    have hread := ((h.consistent hon).of_reading hon (s.reading t k)).fits
    simp only [State.handle, hon, Bool.not_true, Bool.false_eq_true, if_false]
    rcases hr : s.readKey t k with ⟨s', e | a⟩ <;> rw [hr] at hread
    · exact ((Turn.Fits.start h).tell _).become hread |>.tell _
    · refine Turn.Fits.publish ?_ _
      have hturn := (((Turn.Fits.start h).tell [.report (.enter (s.keySpan k))]).become hread).tell
        [.report (.leave (s.keySpan k) [("action", Json.string (a.name.getD a.kind.name))] none)]
      dsimp only
      split
      · exact hturn
      · exact hturn.tell _

theorem fits_switch (s : State) (m : Mode) : (s.switch m).Fits := (s.idle_switch m).consistent.fits

theorem Fits.control (h : s.Fits) (c : Control) : (s.control c).Fits := by
  have hset (b : Bool) : (s.setEnabled b).Fits := by
    have hflag : ({ s with enabled := b } : State).Fits := h.of_eq rfl rfl rfl
    refine (((Turn.Fits.start h).become hflag).become ?_).publish _
    split
    · exact fits_switch _ _
    · exact (idle_resetPending _).consistent.fits
  cases c with
  | setMode m => exact ((Turn.Fits.start h).become (s.fits_switch m)).publish _
  | enable => exact hset true
  | disable => exact hset false
  | toggle => exact hset _
  | yank text =>
    have hyank : (s.yank text).Fits := h.of_eq rfl rfl rfl
    exact (Turn.Fits.start hyank).tell _
  | pattern p =>
    have hpattern : (s.setPattern p).Fits := h.of_eq rfl rfl rfl
    exact ((Turn.Fits.start h).become hpattern).publish _

end State

namespace Station
variable {s : Station} {k : Key}

theorem tell_journal (s : Station) (ms : List Moment) : (s.tell ms).1.journal
    = (s.journal.putAll (ms.filterMap fun m => m.notice.report?)).1 := by
  induction ms generalizing s with
  | nil => rfl
  | cons m ms ih =>
    obtain ⟨r | e, now⟩ := m
    · rw [List.filterMap_cons, Notice.report?, tell]
      dsimp only
      rw [Journal.putAll]
      cases (Journal.put r).run s.journal with
      | ok a j => exact ih { s with state := now, journal := j }
      | error e j => rfl
    · exact ih { s with state := now, told := s.told ++ [e] }

theorem carry_journal (s : Station) (t : Turn) :
    (s.carry t).1.journal = (s.journal.putAll t.reports).1 := by
  rw [Turn.reports_eq, ← tell_journal, carry]
  rcases s.tell t.moments with ⟨s', _ | e⟩ <;> rfl

theorem fits_tell (hs : s.state.Fits) {ms : List Moment} (h : ∀ m ∈ ms, m.state.Fits) :
    (s.tell ms).1.state.Fits := by
  induction ms generalizing s with
  | nil => exact hs
  | cons m ms ih =>
    obtain ⟨hm, hrest⟩ := List.forall_mem_cons.mp h
    obtain ⟨r | e, now⟩ := m
    · rw [tell]
      cases (Journal.put r).run s.journal with
      | ok a j => exact ih (s := { s with state := now, journal := j }) hm hrest
      | error e j => exact hm
    · exact ih (s := { s with state := now, told := s.told ++ [e] }) hm hrest

theorem fits_carry (hs : s.state.Fits) {t : Turn} (h : t.Fits) : (s.carry t).1.state.Fits := by
  have htell := fits_tell hs h.moments
  rw [carry]
  rcases hr : s.tell t.moments with ⟨s', _ | e⟩ <;> rw [hr] at htell
  · exact h.state
  · exact htell

end Station
end ModalEditing
