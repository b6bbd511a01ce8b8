import Mathlib.Data.List.Nodup
import ModalEditing.Proofs.Bus.Delivering

namespace ModalEditing

structure Subscription (κ : Type) where
  event : String
  listener : κ
deriving DecidableEq

/-- What hosts do with a bus: subscribe a listener, or call the unsubscriber given for the subscription
of a number. -/
inductive Act (κ : Type)
  | subscribe (s : Subscription κ)
  | unsubscribe (n : ℕ)

/-- A bus with the subscriptions made on it, in order, and the numbers of those whose unsubscribers were
called. `left` has the numbers of those left when each unsubscriber ends the oldest of its kind. -/
structure Ledger (κ : Type) where
  bus : Bus κ := {}
  made : List (Subscription κ) := []
  called : List ℕ := []
  left : List ℕ := []

section
variable {α β : Type} {p : α → Bool} {g : α → Option β}

theorem filterMap_eraseP [DecidableEq β] {b : β} (h : ∀ a, p a = true ↔ g a = some b) (as : List α) :
    (as.eraseP p).filterMap g = (as.filterMap g).erase b := by
  induction as with
  | nil => rfl
  | cons a as ih =>
    by_cases ha : p a = true
    · rw [List.eraseP_cons_of_pos ha, List.filterMap_cons_some ((h a).mp ha), List.erase_cons_head]
    · rw [List.eraseP_cons_of_neg ha]
      cases hg : g a with
      | none => rw [List.filterMap_cons_none hg, List.filterMap_cons_none hg, ih]
      | some c =>
        have hne : c ≠ b := fun heq => ha ((h a).mpr (heq ▸ hg))
        rw [List.filterMap_cons_some hg, List.filterMap_cons_some hg,
          List.erase_cons_tail (by simpa using hne), ih]

theorem filterMap_eraseP_of_none (h : ∀ a, p a = true → g a = none) (as : List α) :
    (as.eraseP p).filterMap g = as.filterMap g := by
  induction as with
  | nil => rfl
  | cons a as ih =>
    by_cases ha : p a = true
    · rw [List.eraseP_cons_of_pos ha, List.filterMap_cons_none (h a ha)]
    · rw [List.eraseP_cons_of_neg ha, List.filterMap_cons, List.filterMap_cons, ih]

end

namespace Ledger
variable {κ : Type} [DecidableEq κ] {l : Ledger κ} {n : ℕ} {event : String}

/-- Whether the subscription of another number has the same listener and event. -/
def alike (l : Ledger κ) (n m : ℕ) : Bool := l.made[m]? = l.made[n]?

def act (l : Ledger κ) : Act κ → Ledger κ
  | .subscribe s =>
    { l with bus := l.bus.subscribe s.event s.listener, made := l.made ++ [s],
             left := l.left ++ [l.made.length] }
  | .unsubscribe n =>
    match l.made[n]? with
    | none => l
    | some s =>
      { l with bus := l.bus.unsubscribe s.event s.listener, called := l.called ++ [n],
               left := l.left.eraseP (l.alike n) }

def run (acts : List (Act κ)) : Ledger κ := acts.foldl act {}

/-- The subscriptions whose own unsubscribers were not called. -/
def own (l : Ledger κ) : List ℕ := (List.range l.made.length).filter (· ∉ l.called)

def heardBy (l : Ledger κ) (event : String) (n : ℕ) : Option κ :=
  (l.made[n]?.filter (·.event = event)).map Subscription.listener

def heard (l : Ledger κ) (ns : List ℕ) (event : String) : List κ := ns.filterMap (l.heardBy event)

omit [DecidableEq κ] in
theorem heardBy_eq_some_iff {k : κ} : l.heardBy event n = some k ↔ l.made[n]? = some ⟨event, k⟩ := by
  cases hs : l.made[n]? with
  | none => simp [heardBy, hs]
  | some s =>
    obtain ⟨event', k'⟩ := s
    simp [heardBy, hs, Option.filter]

structure Kept (l : Ledger κ) : Prop where
  left_lt : ∀ n ∈ l.left, n < l.made.length
  called_lt : ∀ n ∈ l.called, n < l.made.length
  listeners : ∀ event, l.bus.listeners event = l.heard l.left event

theorem heard_append (h : ∀ n ∈ l.left, n < l.made.length) (s : Subscription κ) (event : String) :
    (l.act (.subscribe s)).heard (l.left ++ [l.made.length]) event
      = l.heard l.left event ++ if s.event = event then [s.listener] else [] := by
  have hold : ∀ n ∈ l.left, (l.act (.subscribe s)).heardBy event n = l.heardBy event n := by
    intro n hn
    have hget : (l.made ++ [s])[n]? = l.made[n]? := List.getElem?_append_left (h n hn)
    show (((l.made ++ [s])[n]?).filter _).map _ = _
    rw [hget]
    rfl
  have hlast : (l.made ++ [s])[l.made.length]? = some s := List.getElem?_concat_length
  rw [heard, List.filterMap_append, List.filterMap_congr hold, heard]
  by_cases he : s.event = event
  · have hnew : (l.act (.subscribe s)).heardBy event l.made.length = some s.listener := by
      subst he
      exact heardBy_eq_some_iff.mpr hlast
    rw [if_pos he, List.filterMap_cons_some hnew, List.filterMap_nil]
  · have hnew : (l.act (.subscribe s)).heardBy event l.made.length = none := by
      show (((l.made ++ [s])[l.made.length]?).filter _).map _ = none
      simp [Option.filter, he]
    rw [if_neg he, List.filterMap_cons_none hnew, List.filterMap_nil]

/-- To take the oldest subscription of a kind off is to take its listener off once. -/
theorem heard_eraseP {s : Subscription κ} (hn : l.made[n]? = some s) (ns : List ℕ) :
    l.heard (ns.eraseP (l.alike n)) s.event = (l.heard ns s.event).erase s.listener :=
  filterMap_eraseP (fun m => by rw [heardBy_eq_some_iff, alike, hn, decide_eq_true_eq]) ns

theorem heard_eraseP_of_ne {s : Subscription κ} (hn : l.made[n]? = some s) (h : s.event ≠ event)
    (ns : List ℕ) : l.heard (ns.eraseP (l.alike n)) event = l.heard ns event := by
  refine filterMap_eraseP_of_none (fun m hm => ?_) ns
  have hm : l.made[m]? = some s := by
    rw [← hn]
    exact of_decide_eq_true hm
  simp [heardBy, hm, Option.filter, h]

theorem Kept.act (h : l.Kept) (a : Act κ) : (l.act a).Kept := by
  cases a with
  | subscribe s =>
    have hlen : (l.made ++ [s]).length = l.made.length + 1 := by simp
    refine ⟨fun n hn => ?_, fun n hn => ?_, fun event => ?_⟩
    · have hn : n ∈ l.left ++ [l.made.length] := hn
      show n < (l.made ++ [s]).length
      rw [hlen]
      rcases List.mem_append.mp hn with hn | hn
      · exact Nat.lt_succ_of_lt (h.left_lt n hn)
      · rw [List.mem_singleton.mp hn]
        exact Nat.lt_succ_self _
    · show n < (l.made ++ [s]).length
      rw [hlen]
      exact Nat.lt_succ_of_lt (h.called_lt n hn)
    · have hheard := heard_append h.left_lt s event
      refine Eq.trans ?_ hheard.symm
      show (l.bus.subscribe s.event s.listener).listeners event = _
      rw [← h.listeners event]
      split
      · rename_i he
        subst he
        exact l.bus.listeners_subscribe s.event s.listener
      · rename_i he
        rw [Bus.listeners_subscribe_of_ne _ he, List.append_nil]
  | unsubscribe n =>
    rw [Ledger.act]
    split
    · exact h
    · -- The bus takes a listener off by its first place, the ledger a number by its kind.
      rename_i s hs
      refine ⟨fun m hm => ?_, fun m hm => ?_, fun event => ?_⟩
      · exact h.left_lt m (List.mem_of_mem_eraseP hm)
      · rcases List.mem_append.mp hm with hm | hm
        · exact h.called_lt m hm
        · rw [List.mem_singleton.mp hm]
          exact (List.getElem?_eq_some_iff.mp hs).1
      · show (l.bus.unsubscribe s.event s.listener).listeners event
          = l.heard (l.left.eraseP (l.alike n)) event
        by_cases he : s.event = event
        · subst he
          rw [l.bus.listeners_unsubscribe, h.listeners, heard_eraseP hs]
        · rw [l.bus.listeners_unsubscribe_of_ne he, h.listeners, heard_eraseP_of_ne hs he]

theorem Kept.foldl (h : l.Kept) (acts : List (Act κ)) : (acts.foldl Ledger.act l).Kept := by
  induction acts generalizing l with
  | nil => exact h
  | cons a acts ih => exact ih (h.act a)

omit [DecidableEq κ] in
theorem kept_empty : Kept ({} : Ledger κ) where
  left_lt _ hn := absurd hn List.not_mem_nil
  called_lt _ hn := absurd hn List.not_mem_nil
  listeners _ := rfl

/-- The unsubscriber of this number ends its own subscription if it ends one. -/
def FindsOwn (l : Ledger κ) (n : ℕ) : Prop := ∀ m, l.left.find? (l.alike n) = some m → m = n

/-- Every unsubscriber called in these acts finds its own subscription to be the oldest left of its kind,
or none of its kind left. -/
def Orderly (l : Ledger κ) : List (Act κ) → Prop
  | [] => True
  | a :: acts => (∀ n, a = .unsubscribe n → l.FindsOwn n) ∧ (l.act a).Orderly acts

theorem eraseP_of_find? {p : ℕ → Bool} {ns : List ℕ} (hn : p n = true)
    (h : ∀ m, ns.find? p = some m → m = n) : ns.eraseP p = ns.erase n := by
  induction ns with
  | nil => rfl
  | cons m ns ih =>
    by_cases hm : p m = true
    · obtain rfl : m = n := h m (List.find?_cons_of_pos hm)
      rw [List.eraseP_cons_of_pos hm, List.erase_cons_head]
    · have hne : m ≠ n := by
        rintro rfl
        exact hm hn
      rw [List.eraseP_cons_of_neg hm, List.erase_cons_tail (by simpa using hne)]
      rw [ih fun m' hm' => h m' (by rw [List.find?_cons_of_neg hm]; exact hm')]

/-- As long as each unsubscriber finds its own subscription, those left are those not unsubscribed. -/
theorem left_act (h : l.Kept) (hl : l.left = l.own) {a : Act κ}
    (ha : ∀ n, a = .unsubscribe n → l.FindsOwn n) : (l.act a).left = (l.act a).own := by
  cases a with
  | subscribe s =>
    have hnew : l.made.length ∉ l.called := fun hc => Nat.lt_irrefl _ (h.called_lt _ hc)
    show l.left ++ [l.made.length] = (List.range (l.made ++ [s]).length).filter (· ∉ l.called)
    rw [List.length_append, List.length_singleton, List.range_succ, List.filter_append, hl, own,
      List.filter_singleton]
    simp [hnew]
  | unsubscribe n =>
    rw [Ledger.act]
    split
    · exact hl
    · have hsame : l.alike n n = true := decide_eq_true rfl
      have hnodup : l.own.Nodup := List.Nodup.filter _ List.nodup_range
      -- To take off the oldest of the kind is to take off this number, which is there only once.
      show l.left.eraseP (l.alike n) = (List.range l.made.length).filter (· ∉ l.called ++ [n])
      rw [eraseP_of_find? hsame (ha n rfl), hl, hnodup.erase_eq_filter, own, List.filter_filter]
      apply List.filter_congr
      intro m _
      simp [not_or, and_comm, bne, Bool.beq_eq_decide_eq]

theorem left_foldl {acts : List (Act κ)} (hk : l.Kept) (hl : l.left = l.own) (h : l.Orderly acts) :
    (acts.foldl Ledger.act l).left = (acts.foldl Ledger.act l).own := by
  induction acts generalizing l with
  | nil => exact hl
  | cons a acts ih => exact ih (hk.act a) (left_act hk hl h.1) h.2

theorem made_stays (l : Ledger κ) (acts : List (Act κ)) :
    l.made <+: (acts.foldl Ledger.act l).made := by
  induction acts generalizing l with
  | nil => exact List.prefix_refl _
  | cons a acts ih =>
    refine List.IsPrefix.trans ?_ (ih (l.act a))
    cases a with
    | subscribe s => exact List.prefix_append _ _
    | unsubscribe n =>
      rw [act]
      split <;> exact List.prefix_refl _

/-- No two subscriptions of one listener to one event: then each unsubscriber finds its own. -/
theorem orderly_of_nodup {acts : List (Act κ)} (hk : l.Kept)
    (h : (acts.foldl Ledger.act l).made.Nodup) : l.Orderly acts := by
  induction acts generalizing l with
  | nil => trivial
  | cons a acts ih =>
    refine ⟨fun n _ m hm => ?_, ih (hk.act a) h⟩
    have hnodup : l.made.Nodup := (made_stays l (a :: acts)).sublist.nodup h
    have halike : l.alike n m = true := List.find?_some hm
    have hsame : l.made[m]? = l.made[n]? := of_decide_eq_true halike
    have hlt := hk.left_lt m (List.mem_of_find?_eq_some hm)
    exact (List.getElem?_inj hlt hnodup).mp hsame

end Ledger

namespace Exchange
variable {π : Type} {x : Exchange π}

def notes (x : Exchange π) (payload : π) (ks : List ℕ) : List (String × π) :=
  ks.filterMap fun k => (x.nameOf k).map (·, payload)

theorem notes_of_none {k : ℕ} (hl : x.listeners[k]? = none) (payload : π) (ks : List ℕ) :
    x.notes payload (k :: ks) = x.notes payload ks :=
  List.filterMap_cons_none (by rw [nameOf, hl]; rfl)

theorem notes_of_some {k : ℕ} {l : Listener π} (hl : x.listeners[k]? = some l) (payload : π)
    (ks : List ℕ) : x.notes payload (k :: ks) = (l.name, payload) :: x.notes payload ks :=
  List.filterMap_cons_some (by rw [nameOf, hl]; rfl)

/-- A listener that does nothing only notes what is delivered to it. -/
theorem call_of_quiet {k : ℕ} {l : Listener π} (hl : x.listeners[k]? = some l) (hq : l.script = [])
    (payload : π) :
    call emit x payload k = ({ x with seen := x.seen ++ [(l.name, payload)] }, none) := by
  obtain ⟨name, script⟩ := l
  obtain rfl : script = [] := hq
  have hset : x.listeners.set k ⟨name, []⟩ = x.listeners := by
    obtain ⟨hk, hget⟩ := List.getElem?_eq_some_iff.mp hl
    rw [← hget]
    exact List.set_getElem_self hk
  rw [call_of_some hl, begun, List.tail_nil, hset]
  rfl

theorem callAll_of_quiet (hx : ∀ l ∈ x.listeners, l.script = []) (payload : π) (ks : List ℕ) :
    callAll emit x payload ks = ({ x with seen := x.seen ++ x.notes payload ks }, none) := by
  induction ks generalizing x with
  | nil => rw [notes, List.filterMap_nil, List.append_nil, callAll]
  | cons k ks ih =>
    cases hl : x.listeners[k]? with
    | none => rw [callAll_of_none (call_of_none hl), ih hx, notes_of_none hl]
    | some l =>
      have hcall := call_of_quiet hl (hx l (List.mem_of_getElem? hl)) payload
      rw [callAll_of_none hcall, notes_of_some hl, List.append_cons x.seen _ (x.notes payload ks)]
      exact ih (x := { x with seen := x.seen ++ [(l.name, payload)] }) hx

end Exchange

namespace Ledger

/-- An exchange whose listeners do nothing notes a payload once for each of these listeners. -/
def Delivers {π : Type} (x : Exchange π) (event : String) (payload : π) (ks : List ℕ) : Prop :=
  x.emit event payload = ({ x with seen := x.seen ++ x.notes payload ks }, none)

/-- Whatever was subscribed and unsubscribed, an event is delivered to the subscriptions left, each once
and in order, when each unsubscriber ends the oldest of its kind. These are the ones whose own
unsubscribers were not called as long as each unsubscriber finds its own to be the oldest of its kind,
or none of its kind left; and so if no listener is subscribed to an event twice. -/
theorem unsubscribers_end_oldest {π : Type} (acts : List (Act ℕ)) (x : Exchange π)
    (hbus : x.bus = (run acts).bus) (hquiet : ∀ l ∈ x.listeners, l.script = []) (event : String)
    (payload : π) :
    Delivers x event payload ((run acts).heard (run acts).left event) ∧
    (Orderly {} acts → Delivers x event payload ((run acts).heard (run acts).own event)) ∧
    ((run acts).made.Nodup → Orderly {} acts) := by
  have hkept : (run acts : Ledger ℕ).Kept := kept_empty.foldl acts
  have hdelivers : Delivers x event payload ((run acts).heard (run acts).left event) := by
    rw [Delivers, Exchange.emit_eq_callAll, Exchange.callAll_of_quiet hquiet, hbus, hkept.listeners]
  refine ⟨hdelivers, fun horderly => ?_, orderly_of_nodup kept_empty⟩
  have hleft : (run acts : Ledger ℕ).left = (run acts).own := left_foldl kept_empty rfl horderly
  rw [← hleft]
  exact hdelivers

/-- An exchange on the bus that acts lead to, whose two listeners do nothing. -/
def twoQuiet (acts : List (Act ℕ)) : Exchange ℕ :=
  { bus := (run acts).bus, listeners := [⟨"a", []⟩, ⟨"b", []⟩] }

/-- Two listeners to one event, and the first one's unsubscriber called twice. -/
theorem other_listener_stays :
    let acts : List (Act ℕ) := [.subscribe ⟨"e", 0⟩, .subscribe ⟨"e", 1⟩, .unsubscribe 0, .unsubscribe 0]
    (∀ l ∈ (twoQuiet acts).listeners, l.script = []) ∧ (run acts).made.Nodup ∧ Orderly {} acts ∧
    (run acts).own = [1] ∧ ((twoQuiet acts).emit "e" 7).1.seen = [("b", 7)] := by
  intro acts
  have hquiet : ∀ l ∈ (twoQuiet acts).listeners, l.script = [] := by simp [twoQuiet]
  have hnodup : (run acts).made.Nodup := by decide +kernel
  obtain ⟨-, hdelivers, horderly⟩ :=
    unsubscribers_end_oldest acts (twoQuiet acts) rfl hquiet "e" 7
  have hseen := congrArg (fun r => r.1.seen) (hdelivers (horderly hnodup))
  refine ⟨hquiet, hnodup, horderly hnodup, by decide +kernel, hseen.trans ?_⟩
  decide +kernel

/-- One listener is subscribed to an event twice, and the first unsubscriber is called twice: it ends the
second subscription as well, whose own unsubscriber was not called. -/
theorem second_subscription_lost :
    (let acts : List (Act ℕ) :=
      [.subscribe ⟨"e", 0⟩, .subscribe ⟨"e", 0⟩, .unsubscribe 0, .unsubscribe 0]
    (run acts).own = [1] ∧ (run acts).heard (run acts).own "e" = [0] ∧
    (run acts).bus.listeners "e" = [] ∧ ((twoQuiet acts).emit "e" 1).1.seen = []) ∧
    let deeds : List (Deed ℕ) :=
      [.subscribe "a" "e" [], .again "b" "e" "a", .unsubscribe "a", .unsubscribe "a", .emit "e" 1]
    (Exchange.perform Exchange.emit {} deeds).1.seen = [] := by
  decide +kernel

end Ledger
end ModalEditing
