import ModalEditing.Proofs.Interpreter.Reporting

namespace ModalEditing

namespace Keymap

theorem registerSpan_worded (t : Keymap) (b : Binding) :
    ∃ texts, Journal.Worded (t.registerSpan b).fields texts :=
  ⟨[("keys", b.signature), ("mode", b.group.name)],
    .cons ⟨rfl, Journal.plain_string _⟩ (.cons ⟨rfl, Journal.plain_string _⟩ .nil)⟩

/-- A registration is reported as one span, in which conflicts may become known. -/
theorem registerReports_eq (t : Keymap) (b : Binding) (replace : Bool) :
    ∃ learnt failure texts, Journal.Worded learnt texts ∧
      t.registerReports b replace = (t.registerSpan b).around learnt failure := by
  rw [registerReports]
  cases t.register b replace with
  | ok t' => exact ⟨[], none, [], .nil, rfl⟩
  | error c =>
    exact ⟨_, _, [("conflicts", ",".intercalate (c.conflicts.map Binding.signature))],
      .cons ⟨rfl, Journal.plain_string _⟩ .nil, rfl⟩

end Keymap

namespace Station
variable {s : Station} {k : Key}

open Journal (Current Mute)

theorem handle_eq (s : Station) (k : Key) :
    (s.handle k).1 = (s.carry (s.state.handle s.keymap k).1).1 := by
  rw [handle]
  rcases s.state.handle s.keymap k with ⟨turn, outcome⟩
  dsimp only
  rcases s.carry turn with ⟨s', _ | e⟩ <;> rfl

theorem handle_journal (s : Station) (k : Key) : (s.handle k).1.journal
    = (s.journal.putAll (s.state.handle s.keymap k).1.reports).1 := by
  rw [handle_eq, carry_journal]

theorem register_journal (s : Station) (b : Binding) (replace : Bool) : (s.register b replace).1.journal
    = (s.journal.putAll (s.keymap.registerReports b replace)).1 := by
  rw [register]
  rcases s.journal.putAll (s.keymap.registerReports b replace) with ⟨j, _ | e⟩
  · cases s.keymap.register b replace <;> rfl
  · rfl

theorem register_state (s : Station) (b : Binding) (replace : Bool) :
    (s.register b replace).1.state = s.state := by
  rw [register]
  rcases s.journal.putAll (s.keymap.registerReports b replace) with ⟨j, _ | e⟩
  · cases s.keymap.register b replace <;> rfl
  · rfl

inductive Registering (s : Station) (b : Binding) (replace : Bool) : Station × Option Refusal → Prop
  | mute {n : Number.ReadError} {j : Journal} (mute : s.journal.Mute n)
    (adds : Journal.Adds Journal.Entry.Configures s.journal j) :
    Registering s b replace ({ s with journal := j }, some (.journal (.badBufferSize n)))
  | added {t : Keymap} {j : Journal} (served : ∀ n, ¬ s.journal.Mute n) (active : j.active ≠ none)
    (ok : s.keymap.register b replace = .ok t) :
    Registering s b replace ({ s with keymap := t, journal := j }, none)
  | conflict {c : Keymap.Conflict} {j : Journal} (served : ∀ n, ¬ s.journal.Mute n)
    (active : j.active ≠ none) (error : s.keymap.register b replace = .error c) :
    Registering s b replace ({ s with journal := j }, some (.conflict c))

theorem registering (hj : Current s.journal) (b : Binding) (replace : Bool) :
    Registering s b replace (s.register b replace) := by
  have hopening := hj.opening (s.keymap.registerSpan_worded b)
  obtain ⟨learnt, failure, texts, hlearnt, hreports⟩ := s.keymap.registerReports_eq b replace
  generalize hopen : (Journal.enter (s.keymap.registerSpan b)).run s.journal = r at hopening
  rw [register, hreports]
  cases hopening with
  | mute hmute hadds =>
    rw [Journal.putAll_around_error hopen]
    exact .mute hmute hadds
  | @opened o j hserved hdefaults hopens hkept hactive htells =>
    rw [Journal.putAll_around hopen hopens hkept hlearnt failure (Journal.putAll_nil _)]
    dsimp only
    cases hok : s.keymap.register b replace with
    | ok t => exact .added hserved hactive hok
    | error c => exact .conflict hserved hactive hok

section Contexts
variable {log : String}

/-- Registering a binding leaves the contexts of all loggers as they were, whatever becomes of it. -/
theorem context_register (hj : Current s.journal) (b : Binding) (replace : Bool)
    (hnew : ∀ key ∈ (s.keymap.registerSpan b).keysOn s.journal.defaults log,
      key ∉ (Journal.context log s.journal.entries).map Prod.fst) :
    Journal.context log (s.register b replace).1.journal.entries
      = Journal.context log s.journal.entries := by
  obtain ⟨learnt, failure, texts, hlearnt, hreports⟩ := s.keymap.registerReports_eq b replace
  rw [register_journal, hreports]
  exact hj.context_around (s.keymap.registerSpan_worded b) ⟨texts, hlearnt⟩ failure
    (List.forall_mem_nil _) hnew

/-- Handling a key leaves them as they were, whatever becomes of it. -/
theorem context_handle (hj : Current s.journal) (k : Key)
    (hnew : ∀ key ∈ (s.state.keySpan k).keysOn s.journal.defaults log,
      key ∉ (Journal.context log s.journal.entries).map Prod.fst) :
    Journal.context log (s.handle k).1.journal.entries = Journal.context log s.journal.entries := by
  rw [handle_journal]
  cases hon : s.state.enabled with
  | false =>
    rw [State.handle_of_disabled hon]
    rfl
  | true =>
    obtain ⟨learnt, texts, failure, inner, hlearnt, hinner, hreports⟩ :=
      State.reports_handle hon s.keymap k
    rw [hreports]
    exact hj.context_around (s.state.keySpan_worded k) ⟨texts, hlearnt⟩ failure hinner hnew

end Contexts

def answer (s : Station) : Keymap.Request → Station × Option Refusal
  | .register b replace => s.register b replace
  | .registerMany bs replace => s.registerMany replace bs
  | .unregister group keys => ((s.unregister group keys).1, none)
  | .loadDefaults replace extra => s.loadDefaults replace extra

/-- What can be asked of an interpreter with a journal: the calls of a session, and requests to the
journal, the environment changing among them. -/
inductive Call
  | key (k : Key)
  | control (c : State.Control)
  | modeNamed (name : String)
  | edit (r : Keymap.Request)
  | journal (r : Journal.Request)

def step (s : Station) : Call → Station
  | .key k => (s.handle k).1
  | .control c => (s.control c).1
  | .modeNamed name =>
    match Mode.parse name with
    | .ok m => (s.control (.setMode m)).1
    | .error _ => s
  | .edit r => (s.answer r).1
  | .journal r => { s with journal := (s.journal.answer r).1 }

def run (s : Station) (cs : List Call) : Station := cs.foldl step s

/-- A new interpreter with this keymap, and a journal that nothing has been asked of. -/
def fresh (defaults : Journal.Defaults) (env : List (String × String)) (enabled : Bool) (t : Keymap) :
    Station := { state := { enabled }, keymap := t, journal := { defaults, env } }

/-- What is pending fits the mode, and no logger is stale. Being disabled is left out: where switching off
cannot be reported, what is pending stays. -/
structure Sound (s : Station) : Prop where
  fits : s.state.Fits
  current : Current s.journal

theorem Sound.carry (h : s.Sound) {t : Turn} (ht : t.Fits) : (s.carry t).1.Sound := by
  refine ⟨fits_carry h.fits ht, ?_⟩
  rw [carry_journal]
  exact (Journal.carries_putAll _ _ h.current).1

theorem Sound.handle (h : s.Sound) (k : Key) : (s.handle k).1.Sound := by
  have hcarry := h.carry (h.fits.handle s.keymap k)
  rw [handle_eq]
  exact hcarry

theorem Sound.register (h : s.Sound) (b : Binding) (replace : Bool) : (s.register b replace).1.Sound := by
  refine ⟨?_, ?_⟩
  · rw [register_state]
    exact h.fits
  · rw [register_journal]
    exact (Journal.carries_putAll _ _ h.current).1

theorem Sound.registerMany (h : s.Sound) (replace : Bool) (bs : List Binding) :
    (s.registerMany replace bs).1.Sound := by
  induction bs generalizing s with
  | nil => exact h
  | cons b bs ih =>
    have hfirst := h.register b replace
    rw [Station.registerMany]
    rcases hr : s.register b replace with ⟨s', _ | r⟩ <;> rw [hr] at hfirst
    · exact ih hfirst
    · exact hfirst

theorem Sound.answer (h : s.Sound) (r : Keymap.Request) : (s.answer r).1.Sound := by
  cases r with
  | register b replace => exact h.register b replace
  | registerMany bs replace => exact h.registerMany replace bs
  | unregister group keys => exact ⟨h.fits, h.current⟩
  | loadDefaults replace extra =>
    have hfirst := h.registerMany replace Keymap.defaults
    rw [Station.answer, loadDefaults]
    rcases hr : s.registerMany replace Keymap.defaults with ⟨s', _ | r⟩ <;> rw [hr] at hfirst
    · exact hfirst.registerMany true extra
    · exact hfirst

theorem Sound.step (h : s.Sound) (c : Call) : (s.step c).Sound := by
  cases c with
  | key k => exact h.handle k
  | control c => exact h.carry (h.fits.control c)
  | modeNamed name =>
    rw [Station.step]
    cases Mode.parse name with
    | ok m => exact h.carry (h.fits.control (.setMode m))
    | error e => exact h
  | edit r => exact h.answer r
  | journal r => exact ⟨h.fits, (h.current.answer r).1⟩

theorem Sound.run (h : s.Sound) (cs : List Call) : (s.run cs).Sound := by
  induction cs generalizing s with
  | nil => exact h
  | cons c cs ih => exact ih (h.step c)

theorem Sound.fresh (defaults : Journal.Defaults) (env : List (String × String)) (enabled : Bool)
    (t : Keymap) : (fresh defaults env enabled t).Sound :=
  ⟨(State.Consistent.fresh enabled).fits, Current.fresh defaults env⟩

end Station
end ModalEditing
