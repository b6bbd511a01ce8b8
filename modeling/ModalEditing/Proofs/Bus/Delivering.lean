import Mathlib.Data.List.Basic
import ModalEditing.Proofs.Bus.Nesting

namespace ModalEditing

namespace Bus
variable {κ : Type}

theorem listeners_subscribe_of_ne (b : Bus κ) {event event' : String} (h : event ≠ event') (k : κ) :
    (b.subscribe event k).listeners event' = b.listeners event' := by
  simp [listeners, subscribe, Assoc.get?_put_of_ne h]

theorem listeners_unsubscribe_of_ne [DecidableEq κ] (b : Bus κ) {event event' : String}
    (h : event ≠ event') (k : κ) : (b.unsubscribe event k).listeners event' = b.listeners event' := by
  simp [listeners, unsubscribe, Assoc.get?_put_of_ne h]

end Bus

namespace Exchange
variable {π : Type} {x y z : Exchange π} {payload : π} {k : ℕ}

section
variable {P : Exchange π → Prop} (hchange : ∀ {d x y}, Changes d x y → P x → P y)
  (hbegun : ∀ {x k l} (payload : π), x.listeners[k]? = some l → P x → P (x.begun payload k l))

include hchange in
theorem perform_induction {f : Exchange π → String → π → Exchange π × Option Stop}
    (hf : ∀ x event payload, P x → P (f x event payload).1) (ds : List (Deed π)) (hx : P x) :
    P (perform f x ds).1 := by
  induction ds generalizing x with
  | nil => exact hx
  | cons d rest ih =>
    rcases deed_cases x d with ⟨y, hy⟩ | ⟨event, payload, rfl⟩ | ⟨text, rfl⟩
    · rw [perform_of_changes hy]
      exact ih (hchange hy hx)
    · have hy := hf x event payload hx
      obtain ⟨⟨y, stop⟩, hr⟩ : ∃ r, f x event payload = r := ⟨_, rfl⟩
      rw [hr] at hy
      cases stop with
      | none =>
        rw [perform_emit_of_none hr]
        exact ih hy
      | some s =>
        rw [perform_emit_of_some hr]
        exact hy
    · exact hx

include hchange hbegun in
theorem callAll_induction {f : Exchange π → String → π → Exchange π × Option Stop}
    (hf : ∀ x event payload, P x → P (f x event payload).1) (ks : List ℕ) (hx : P x) :
    P (callAll f x payload ks).1 := by
  induction ks generalizing x with
  | nil => exact hx
  | cons k ks ih =>
    have hy : P (call f x payload k).1 := by
      cases hl : x.listeners[k]? with
      | none =>
        rw [call_of_none hl]
        exact hx
      | some l =>
        rw [call_of_some hl]
        exact perform_induction hchange hf _ (hbegun payload hl hx)
    obtain ⟨⟨y, stop⟩, hr⟩ : ∃ r, call f x payload k = r := ⟨_, rfl⟩
    rw [hr] at hy
    cases stop with
    | none =>
      rw [callAll_of_none hr]
      exact ih hy
    | some s =>
      rw [callAll_of_some hr]
      exact hy

include hchange hbegun in
/-- What deeds that deliver nothing preserve, and the beginnings of calls, every delivery preserves. -/
theorem emit_induction (event : String) (hx : P x) : P (x.emit event payload).1 := by
  have hwithin (depth : ℕ) : ∀ x event payload, P x → P (emitWithin depth x event payload).1 := by
    induction depth with
    | zero => exact fun _ _ _ hx => hx
    | succ depth ih => exact fun x event payload hx => callAll_induction hchange hbegun ih _ hx
  exact hwithin _ x event payload hx

end

def nameOf (x : Exchange π) (k : ℕ) : Option String := x.listeners[k]?.map Listener.name

/-- Later in an exchange all listeners are still there, and what was seen is not forgotten. -/
structure Since (x y : Exchange π) : Prop where
  names : ∀ k name, x.nameOf k = some name → y.nameOf k = some name
  seen : ∃ log, y.seen = x.seen ++ log

theorem Since.refl (x : Exchange π) : Since x x := ⟨fun _ _ h => h, [], (List.append_nil _).symm⟩

theorem Since.trans (h : Since x y) (h' : Since y z) : Since x z := by
  obtain ⟨log, hlog⟩ := h.seen
  obtain ⟨log', hlog'⟩ := h'.seen
  exact ⟨fun k name hk => h'.names k name (h.names k name hk), log ++ log',
    by rw [hlog', hlog, List.append_assoc]⟩

theorem Changes.since {d : Deed π} (h : Changes d x y) : Since x y := by
  cases h with
  | subscribe _ label event script =>
    refine ⟨fun k name hk => ?_, [], (List.append_nil _).symm⟩
    obtain ⟨l, hl, hname⟩ := Option.map_eq_some_iff.mp hk
    have hlt := (List.getElem?_eq_some_iff.mp hl).1
    have hsame : (x.subscribe label event script).listeners[k]? = some l := by
      rw [← hl]
      exact List.getElem?_append_left hlt
    rw [nameOf, hsame, Option.map_some, hname]
  | again _ label event listener =>
    unfold Exchange.again
    split
    · exact ⟨fun _ _ hk => hk, [], (List.append_nil _).symm⟩
    · exact .refl x
  | unsubscribe _ label =>
    unfold Exchange.unsubscribe
    split
    · exact ⟨fun _ _ hk => hk, [], (List.append_nil _).symm⟩
    · exact .refl x

theorem since_begun {l : Listener π} (payload : π) (hl : x.listeners[k]? = some l) :
    Since x (x.begun payload k l) := by
  refine ⟨fun k' name hk => ?_, [(l.name, payload)], rfl⟩
  have hset : (x.begun payload k l).nameOf k' = ((x.listeners.set k
    { l with script := l.script.tail })[k']?).map Listener.name := rfl
  rw [hset, List.getElem?_set]
  split
  · rename_i heq
    subst heq
    rw [nameOf, hl] at hk
    have hlt := (List.getElem?_eq_some_iff.mp hl).1
    rw [if_pos hlt]
    exact hk
  · exact hk

/-- In any delivery listeners stay, and what is seen is added to what was seen before. -/
theorem since_emit (x : Exchange π) (event : String) (payload : π) :
    Since x (x.emit event payload).1 :=
  emit_induction (P := Since x) (fun hc hx => hx.trans hc.since)
    (fun payload hl hx => hx.trans (since_begun payload hl)) event (.refl x)

/-- A listener that is called notes the payload first; what is seen next is seen until it returns. -/
theorem call_seen {name : String} {stop : Option Stop} (hname : x.nameOf k = some name)
    (h : call emit x payload k = (y, stop)) :
    Since x y ∧ ∃ nested, y.seen = x.seen ++ (name, payload) :: nested := by
  obtain ⟨l, hl, rfl⟩ := Option.map_eq_some_iff.mp hname
  rw [call_of_some hl] at h
  -- The note is there before the script begins, and nothing in the script takes it back.
  have hsince : Since (x.begun payload k l) y := by
    have hdone := perform_induction (P := Since (x.begun payload k l)) (fun hc hx => hx.trans hc.since)
      (fun y event payload hy => hy.trans (since_emit y event payload)) (l.script.head?.getD [])
      (.refl _)
    rw [h] at hdone
    exact hdone
  obtain ⟨nested, hnested⟩ := hsince.seen
  refine ⟨(since_begun payload hl).trans hsince, nested, ?_⟩
  rw [hnested, begun, List.append_assoc]
  rfl

/-- Listeners called one after another with a payload, each where the one before left the exchange, up
to the first that raises; with each the log of what is seen from its call until it returns. -/
inductive Called (payload : π) :
    Exchange π → List ℕ → List (List (String × π)) → Exchange π → Option Stop → Prop
  | nil (x : Exchange π) : Called payload x [] [] x none
  | returns {x y z : Exchange π} {k : ℕ} {ks : List ℕ} {name : String} {nested : List (String × π)}
      {logs : List (List (String × π))} {stop : Option Stop} (hname : x.nameOf k = some name)
      (hcall : call emit x payload k = (y, none))
      (hseen : y.seen = x.seen ++ (name, payload) :: nested) (hrest : Called payload y ks logs z stop) :
    Called payload x (k :: ks) (((name, payload) :: nested) :: logs) z stop
  | raises {x y : Exchange π} {k : ℕ} {name : String} {nested : List (String × π)} {text : String}
      (hname : x.nameOf k = some name) (hcall : call emit x payload k = (y, some (.raised text)))
      (hseen : y.seen = x.seen ++ (name, payload) :: nested) :
    Called payload x [k] [(name, payload) :: nested] y (some (.raised text))

theorem Called.seen {ks : List ℕ} {logs : List (List (String × π))} {stop : Option Stop}
    (h : Called payload x ks logs y stop) : y.seen = x.seen ++ logs.flatten := by
  induction h with
  | nil x => exact (List.append_nil _).symm
  | returns hname hcall hseen hrest ih => rw [ih, hseen, List.flatten_cons, List.append_assoc]
  | raises hname hcall hseen => rw [hseen, List.flatten_singleton]

theorem call_ends (x : Exchange π) (payload : π) (k : ℕ) : (call emit x payload k).2 ≠ some .tooDeep := by
  have hagree := agree_call (f := emitWithin x.weight) (g := emit) (x := x)
    (fun _ event payload hx => agree_emit hx event payload) (Nat.le_refl _) payload k
  rw [← hagree.same]
  exact hagree.ends

theorem exists_called (payload : π) (ks : List ℕ) (hks : ∀ k ∈ ks, ∃ name, x.nameOf k = some name) :
    ∃ called later logs, ks = called ++ later ∧
      Called payload x called logs (callAll emit x payload ks).1 (callAll emit x payload ks).2 ∧
      ((callAll emit x payload ks).2 = none → later = []) := by
  induction ks generalizing x with
  | nil => exact ⟨[], [], [], rfl, .nil x, fun _ => rfl⟩
  | cons k ks ih =>
    obtain ⟨name, hname⟩ := hks k List.mem_cons_self
    obtain ⟨⟨y, stop⟩, hr⟩ : ∃ r, call emit x payload k = r := ⟨_, rfl⟩
    obtain ⟨hsince, nested, hseen⟩ := call_seen hname hr
    cases stop with
    | none =>
      rw [callAll_of_none hr]
      obtain ⟨called, later, logs, rfl, hcalled, hlater⟩ := ih (x := y) fun k' hk' => by
        obtain ⟨name', hname'⟩ := hks k' (List.mem_cons_of_mem _ hk')
        exact ⟨name', hsince.names k' name' hname'⟩
      exact ⟨k :: called, later, _, rfl, .returns hname hr hseen hcalled, hlater⟩
    | some s =>
      have hends := call_ends x payload k
      rw [hr] at hends
      rw [callAll_of_some hr]
      cases s with
      | tooDeep => exact absurd rfl hends
      | raised text => exact ⟨[k], ks, _, rfl, .raises hname hr hseen, by simp⟩

/-- Each log begins with the listener's own note of the payload. -/
theorem Called.heads {ks : List ℕ} {logs : List (List (String × π))} {stop : Option Stop}
    (h : Called payload x ks logs y stop) (hks : ∀ k ∈ ks, ∃ name, x.nameOf k = some name) :
    logs.map List.head? = ks.map fun k => (x.nameOf k).map (·, payload) := by
  induction h with
  | nil x => rfl
  | @returns x y z k ks name nested logs stop hname hcall hseen hrest ih =>
    -- The names do not change, so it is all the same when they are asked for.
    have hsince := (call_seen hname hcall).1
    have hnames : ∀ k ∈ ks, y.nameOf k = x.nameOf k := by
      intro k' hk'
      obtain ⟨name', hname'⟩ := hks k' (List.mem_cons_of_mem _ hk')
      rw [hname', hsince.names k' name' hname']
    rw [List.map_cons, List.map_cons, hname, ih fun k' hk' => ?_, List.map_congr_left fun k' hk' => ?_]
    · rfl
    · rw [hnames k' hk']
    · rw [hnames k' hk']
      exact hks k' (List.mem_cons_of_mem _ hk')
  | raises hname hcall hseen =>
    rw [List.map_singleton, List.map_singleton, hname]
    rfl

/-- Everyone who is subscribed, or known by name, is a listener. -/
structure Sound (x : Exchange π) : Prop where
  subscribed : ∀ event, ∀ k ∈ x.bus.listeners event, k < x.listeners.length
  named : ∀ name k, Assoc.get? name x.names = some k → k < x.listeners.length

theorem Sound.names (h : x.Sound) {event : String} (hk : k ∈ x.bus.listeners event) :
    ∃ name, x.nameOf k = some name := by
  have hlt := h.subscribed event k hk
  exact ⟨_, by rw [nameOf, List.getElem?_eq_getElem hlt]; rfl⟩

theorem sound_empty : Sound ({} : Exchange π) where
  subscribed _ _ hk := absurd hk List.not_mem_nil
  named _ _ hk := by cases hk

theorem Sound.add (h : x.Sound) (label event : String) (hk : k < x.listeners.length) :
    (x.add label event k).Sound := by
  refine ⟨fun event' k' hk' => ?_, h.named⟩
  have hk' : k' ∈ (x.bus.subscribe event k).listeners event' := hk'
  by_cases he : event = event'
  · subst he
    rw [Bus.listeners_subscribe, List.mem_append] at hk'
    rcases hk' with hk' | hk'
    · exact h.subscribed event k' hk'
    · rw [List.mem_singleton.mp hk']
      exact hk
  · rw [Bus.listeners_subscribe_of_ne _ he] at hk'
    exact h.subscribed event' k' hk'

theorem Sound.listener (h : x.Sound) (name : String) (script : List (List (Deed π))) :
    Sound { x with listeners := x.listeners ++ [⟨name, script⟩],
                   names := Assoc.put name x.listeners.length x.names } := by
  have hmore : x.listeners.length < (x.listeners ++ [(⟨name, script⟩ : Listener π)]).length := by simp
  refine ⟨fun event k hk => Nat.lt_trans (h.subscribed event k hk) hmore, fun name' k hk => ?_⟩
  by_cases hn : name = name'
  · subst hn
    rw [Assoc.get?_put_self] at hk
    rw [← Option.some.inj hk]
    exact hmore
  · rw [Assoc.get?_put_of_ne hn] at hk
    exact Nat.lt_trans (h.named name' k hk) hmore

theorem Changes.sound {d : Deed π} (h : Changes d x y) (hx : x.Sound) : y.Sound := by
  cases h with
  | subscribe _ label event script =>
    have hlast : x.listeners.length < (x.listeners ++ [(⟨label, script⟩ : Listener π)]).length := by simp
    exact (hx.listener label script).add label event hlast
  | again _ label event listener =>
    unfold Exchange.again
    split
    · rename_i k hk
      exact hx.add label event (hx.named listener k hk)
    · exact hx
  | unsubscribe _ label =>
    unfold Exchange.unsubscribe
    split
    · rename_i event k hk
      refine ⟨fun event' k' hk' => ?_, hx.named⟩
      have hk' : k' ∈ (x.bus.unsubscribe event k).listeners event' := hk'
      by_cases he : event = event'
      · subst he
        rw [Bus.listeners_unsubscribe] at hk'
        exact hx.subscribed event k' (List.mem_of_mem_erase hk')
      · rw [Bus.listeners_unsubscribe_of_ne _ he] at hk'
        exact hx.subscribed event' k' hk'
    · exact hx

theorem Sound.begun {l : Listener π} (payload : π) (hx : x.Sound) : (x.begun payload k l).Sound := by
  have hlen : (x.begun payload k l).listeners.length = x.listeners.length := List.length_set
  refine ⟨fun event k' hk' => ?_, fun name k' hk' => ?_⟩
  · rw [hlen]
    exact hx.subscribed event k' hk'
  · rw [hlen]
    exact hx.named name k' hk'

theorem Sound.emit (hx : x.Sound) (event : String) (payload : π) : (x.emit event payload).1.Sound :=
  emit_induction (P := Sound) (fun hc hx => hc.sound hx) (fun payload _ hx => hx.begun payload) event hx

/-- Whatever is done on an exchange, everyone who is subscribed stays a listener. -/
theorem Sound.perform (hx : x.Sound) (ds : List (Deed π)) :
    (Exchange.perform Exchange.emit x ds).1.Sound :=
  perform_induction (P := Sound) (fun hc hx => hc.sound hx) (fun _ event payload hx => hx.emit event payload)
    ds hx

/-- A deed that raises ends what is done, and what was done before it remains. -/
theorem perform_raise {ds : List (Deed π)} (h : Exchange.perform emit x ds = (y, none)) (text : String)
    (rest : List (Deed π)) :
    Exchange.perform emit x (ds ++ .raise text :: rest) = (y, some (.raised text)) := by
  induction ds generalizing x with
  | nil =>
    obtain rfl : x = y := congrArg Prod.fst h
    rfl
  | cons d ds ih =>
    rw [List.cons_append]
    rcases deed_cases x d with ⟨x', hx'⟩ | ⟨event, payload, rfl⟩ | ⟨text', rfl⟩
    · rw [perform_of_changes hx'] at h ⊢
      exact ih h
    · obtain ⟨⟨x', stop⟩, hr⟩ : ∃ r, emit x event payload = r := ⟨_, rfl⟩
      cases stop with
      | none =>
        rw [perform_emit_of_none hr] at h ⊢
        exact ih h
      | some s =>
        rw [perform_emit_of_some hr] at h
        cases congrArg Prod.snd h
    · cases congrArg Prod.snd h

/-- Whatever was done on an exchange before, and whatever its listeners do while an event is delivered,
just those who listened when it began are called, in the order of subscription, each once and with the
payload. A call lasts until all that the listener does is done, events of its own included. The first
that raises is the last: it ends the delivery, and what it did before to the exchange remains. -/
theorem delivers_to_snapshot (x : Exchange π) (hx : x.Sound) (event : String) (payload : π)
    (hn : (x.bus.listeners event).Nodup) :
    (∃ called later logs,
      x.bus.listeners event = called ++ later ∧ called.Nodup ∧
      Called payload x called logs (x.emit event payload).1 (x.emit event payload).2 ∧
      logs.map List.head? = called.map (fun k => (x.nameOf k).map (·, payload)) ∧
      (x.emit event payload).1.seen = x.seen ++ logs.flatten ∧
      ((x.emit event payload).2 = none → later = [])) ∧
    (x.emit event payload).2 ≠ some .tooDeep ∧ (x.emit event payload).1.Sound ∧
    (∀ (y z : Exchange π) (k : ℕ) (l : Listener π) (ds rest : List (Deed π)) (text : String),
      y.listeners[k]? = some l → l.script.head? = some (ds ++ .raise text :: rest) →
      perform emit (y.begun payload k l) ds = (z, none) →
      call emit y payload k = (z, some (.raised text))) := by
  have hnames : ∀ k ∈ x.bus.listeners event, ∃ name, x.nameOf k = some name := fun k hk => hx.names hk
  refine ⟨?_, emit_ends x event payload, hx.emit event payload, ?_⟩
  · rw [emit_eq_callAll]
    obtain ⟨called, later, logs, hlisteners, hcalled, hlater⟩ :=
      exists_called payload (x.bus.listeners event) hnames
    have hmem : ∀ k ∈ called, k ∈ x.bus.listeners event := fun k hk => by
      rw [hlisteners]
      exact List.mem_append_left later hk
    refine ⟨called, later, logs, hlisteners, ?_, hcalled,
      hcalled.heads fun k hk => hnames k (hmem k hk), hcalled.seen, hlater⟩
    rw [hlisteners] at hn
    exact (List.nodup_append.mp hn).1
  · intro y z k l ds rest text hl hscript hdone
    rw [call_of_some hl, hscript]
    exact perform_raise hdone text rest

/-- An exchange with three listeners. The first, when it is called, takes the second off the bus, puts
another on it, and sends the event once more; the second raises once. -/
def entangled : Exchange ℕ :=
  (perform emit {} [
    .subscribe "a" "e" [[.unsubscribe "b", .subscribe "d" "e" [], .emit "e" 2]],
    .subscribe "b" "e" [[.unsubscribe "c", .raise "no", .unsubscribe "a"]],
    .subscribe "c" "e" []]).1

/-- The second is called although the first took it off; the third is called in the nested delivery but
not in the outer one, which the second ends. -/
theorem snapshot_of_entangled :
    entangled.Sound ∧ (entangled.bus.listeners "e").Nodup ∧
    (∃ called later logs, entangled.bus.listeners "e" = called ++ later ∧
      logs.flatten = [("a", 1), ("a", 2), ("c", 2), ("d", 2), ("b", 1)] ∧
      Called 1 entangled called logs (entangled.emit "e" 1).1 (some (.raised "no"))) ∧
    ((entangled.emit "e" 1).1.bus.listeners "e") = [0, 3] := by
  have hsound : entangled.Sound := sound_empty.perform _
  have hnodup : (entangled.bus.listeners "e").Nodup := by decide +kernel
  obtain ⟨⟨called, later, logs, hlisteners, -, hcalled, -, hseen, -⟩, -⟩ :=
    delivers_to_snapshot entangled hsound "e" 1 hnodup
  have hstop : (entangled.emit "e" 1).2 = some (.raised "no") := by decide +kernel
  have hlog : (entangled.emit "e" 1).1.seen = [("a", 1), ("a", 2), ("c", 2), ("d", 2), ("b", 1)] := by
    decide +kernel
  have hbefore : entangled.seen = [] := by decide +kernel
  rw [hlog, hbefore, List.nil_append] at hseen
  rw [hstop] at hcalled
  exact ⟨hsound, hnodup, ⟨called, later, logs, hlisteners, hseen.symm, hcalled⟩, by decide +kernel⟩

end Exchange
end ModalEditing
