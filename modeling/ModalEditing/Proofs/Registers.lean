import ModalEditing.Proofs.Maps
import ModalEditing.Register

namespace ModalEditing.Bank
variable {b : Bank}

def single? (s : String) : Option Char :=
  match s.toList with
  | [c] => some c
  | _ => none

/-- What a caller may give as the name of a register: a text, or a value that is none. -/
inductive Label
  | text (s : String)
  | other (v : Json) (h : ∀ s, v ≠ .str s)

def Label.value : Label → Json
  | .text s => .string s
  | .other v _ => v

def Label.char? : Label → Option Char
  | .text s => single? s
  | .other _ _ => none

inductive Call
  | set (name : Label) (text : Text)
  | setUnnamed (text : Text)
  | load (entries : List (String × Text))

def call (b : Bank) : Call → Bank × Option NameError
  | .set name text =>
    match nameOf name.value with
    | .ok c => (b.set c text, none)
    | .error e => (b, some e)
  | .setUnnamed text => (b.set unnamed text, none)
  | .load entries => b.load entries

def run (b : Bank) (cs : List Call) : Bank := cs.foldl (fun b c => (b.call c).1) b

/-- What a call writes, in order. Setting a register writes the unnamed one with it, and loading stops at
the first name that is not a single character. -/
def Call.writes : Call → List (Char × Text)
  | .set name text => (name.char?.map fun c => [(c, text), (unnamed, text)]).getD []
  | .setUnnamed text => [(unnamed, text)]
  | .load entries =>
    (entries.takeWhile fun e => (single? e.1).isSome).filterMap fun e => (single? e.1).map (·, e.2)

/-- One of the names in the call is not a single character. -/
def Call.Misnamed : Call → Prop
  | .set name _ => name.char? = none
  | .setUnnamed _ => False
  | .load entries => ∃ e ∈ entries, single? e.1 = none

/-- All but a text of one character is refused as a name. -/
theorem nameOf_refuses {v : Json} (h : ∀ n, v ≠ .str [n]) : ∃ e, nameOf v = .error e := by
  rw [nameOf.eq_def]
  split
  · exact absurd rfl (h _)
  · split <;> exact ⟨_, rfl⟩

theorem nameOf_singleton (c : Char) : nameOf (.string (String.singleton c)) = .ok c := by
  have hvalue : Json.string (String.singleton c) = .str [CodePoint.ofChar c] := by
    rw [Json.string, Json.Str.ofString, String.toList_singleton, List.map_singleton]
  rw [hvalue, nameOf, CodePoint.char?_ofChar]

theorem single?_eq_some_iff {s : String} {c : Char} : single? s = some c ↔ s = String.singleton c := by
  have hlist : s = String.singleton c ↔ s.toList = [c] := by
    rw [← String.toList_inj, String.toList_singleton]
  rw [hlist, single?]
  split
  · rename_i d hd
    rw [hd, List.singleton_inj, Option.some.injEq]
  · rename_i hmany
    exact iff_of_false (fun h => Option.some_ne_none c h.symm) (hmany c)

theorem single?_of_string {s : String} {n : CodePoint} (h : Json.string s = .str [n]) :
    (single? s).isSome := by
  rw [Json.string, Json.str.injEq, Json.Str.ofString, List.map_eq_singleton_iff] at h
  obtain ⟨c, hc, -⟩ := h
  simp [single?, hc]

theorem nameOf_label (l : Label) : (∃ c, l.char? = some c ∧ nameOf l.value = .ok c) ∨
    l.char? = none ∧ ∃ e, nameOf l.value = .error e := by
  cases l with
  | other v h => exact .inr ⟨rfl, nameOf_refuses fun n => h [n]⟩
  | text s =>
    cases hs : single? s with
    | some c =>
      obtain rfl := single?_eq_some_iff.mp hs
      exact .inl ⟨c, hs, nameOf_singleton c⟩
    | none =>
      refine .inr ⟨hs, nameOf_refuses fun n hn => ?_⟩
      simpa [hs] using single?_of_string hn

section Load
variable {name : String} {text : Text} {rest : List (String × Text)} {c : Char}

theorem load_cons_single (h : single? name = some c) (b : Bank) :
    b.load ((name, text) :: rest) = load ⟨Assoc.put c text b.slots⟩ rest := by
  obtain rfl := single?_eq_some_iff.mp h
  rw [load, nameOf_singleton]

theorem load_cons_misnamed (h : single? name = none) (b : Bank) :
    ∃ e, b.load ((name, text) :: rest) = (b, some e) := by
  rcases nameOf_label (.text name) with ⟨c, hc, -⟩ | ⟨-, e, he⟩
  · exact absurd (h.symm.trans hc) (Option.some_ne_none c).symm
  · refine ⟨e, ?_⟩
    have hname : nameOf (.string name) = .error e := he
    rw [load, hname]

theorem writes_load_single (h : single? name = some c) :
    (Call.load ((name, text) :: rest)).writes = (c, text) :: (Call.load rest).writes := by
  simp [Call.writes, h]

theorem writes_load_misnamed (h : single? name = none) :
    (Call.load ((name, text) :: rest)).writes = [] := by
  simp [Call.writes, h]

theorem load_writes (b : Bank) (entries : List (String × Text)) :
    (b.load entries).1.slots = Assoc.putAll b.slots (Call.load entries).writes ∧
    ((b.load entries).2 = none ↔ ∀ e ∈ entries, single? e.1 ≠ none) := by
  induction entries generalizing b with
  | nil => exact ⟨rfl, iff_of_true rfl (List.forall_mem_nil _)⟩
  | cons entry rest ih =>
    obtain ⟨name, text⟩ := entry
    rw [List.forall_mem_cons]
    cases h : single? name with
    | some c =>
      obtain ⟨hslots, hnone⟩ := ih ⟨Assoc.put c text b.slots⟩
      rw [load_cons_single h, writes_load_single h, hslots, hnone]
      exact ⟨rfl, (and_iff_right (Option.some_ne_none c)).symm⟩
    | none =>
      obtain ⟨e, he⟩ := load_cons_misnamed h b
      rw [he, writes_load_misnamed h]
      exact ⟨rfl, iff_of_false (Option.some_ne_none e) fun hall => hall.1 rfl⟩

end Load

/-- Set by its own name the unnamed register is written once, which comes to the same as twice. -/
theorem set_slots (b : Bank) (c : Char) (text : Text) :
    (b.set c text).slots = Assoc.putAll b.slots [(c, text), (unnamed, text)] := by
  rw [set]
  dsimp only [Assoc.putAll, List.foldl]
  split
  · rename_i h
    rw [h, Assoc.put_put_self]
  · rfl

/-- The step: a call writes its record, and it is refused exactly if a name in it is not a single
character. -/
theorem call_writes (b : Bank) (c : Call) : (b.call c).1.slots = Assoc.putAll b.slots c.writes ∧
    ((b.call c).2 = none ↔ ¬ c.Misnamed) := by
  cases c with
  | set name text =>
    rcases nameOf_label name with ⟨c, hc, hok⟩ | ⟨hc, e, he⟩
    · simp [call, hok, Call.writes, Call.Misnamed, hc, set_slots]
    · simp [call, he, Call.writes, Call.Misnamed, hc, Assoc.putAll]
  | setUnnamed text =>
    exact ⟨rfl, iff_of_true rfl not_false⟩
  | load entries =>
    obtain ⟨hslots, hnone⟩ := load_writes b entries
    refine ⟨hslots, hnone.trans ?_⟩
    simp [Call.Misnamed]

theorem run_slots (b : Bank) (cs : List Call) :
    (b.run cs).slots = Assoc.putAll b.slots (cs.flatMap Call.writes) := by
  induction cs generalizing b with
  | nil => rfl
  | cons c cs ih =>
    have hrun : b.run (c :: cs) = (b.call c).1.run cs := rfl
    rw [hrun, ih, (call_writes b c).1, List.flatMap_cons]
    exact List.foldl_append.symm

def entriesOf (initial : List (Char × Text)) : List (String × Text) :=
  initial.map fun e => (String.singleton e.1, e.2)

theorem writes_entriesOf (initial : List (Char × Text)) :
    (Call.load (entriesOf initial)).writes = initial := by
  induction initial with
  | nil => rfl
  | cons e rest ih =>
    have hcons : entriesOf (e :: rest) = (String.singleton e.1, e.2) :: entriesOf rest := rfl
    rw [hcons, writes_load_single (single?_eq_some_iff.mpr rfl), ih]

theorem load_entriesOf (b : Bank) (initial : List (Char × Text)) : (b.load (entriesOf initial)).2 = none := by
  rw [(load_writes b _).2]
  rintro e he hnone
  obtain ⟨e', -, rfl⟩ := List.mem_map.mp he
  exact Option.some_ne_none _ ((single?_eq_some_iff.mpr rfl).symm.trans hnone)

def record (initial : List (Char × Text)) (cs : List Call) : List (Char × Text) :=
  initial ++ cs.flatMap Call.writes

/-- The run: the slots are the map that the record makes, in which the unnamed register comes first. -/
theorem run_slots_of_load {initial : List (Char × Text)}
    (h : ({} : Bank).load (entriesOf initial) = (b, none)) (cs : List Call) :
    (b.run cs).slots = Assoc.ofList ((unnamed, []) :: record initial cs) := by
  have hslots := (load_writes {} (entriesOf initial)).1
  rw [h, writes_entriesOf] at hslots
  rw [run_slots, hslots, record]
  exact List.foldl_append.symm

theorem get_of_slots {es : List (Char × Text)} (h : b.slots = Assoc.ofList ((unnamed, []) :: es)) (c : Char) :
    b.get c = (es.reverse.lookup c).getD [] := by
  rw [get, h, Assoc.get?_ofList, List.reverse_cons, List.lookup_append]
  cases es.reverse.lookup c with
  | some t => rfl
  | none =>
    rw [Option.none_or, List.lookup_cons]
    split <;> rfl

/-- A bank is the record of its writes. A register holds what was written to it last, the names stand in
the order of their first writing behind the unnamed one, a call is refused exactly if one of its names is
not a single character, and then setting changes nothing. -/
theorem run_is_record (initial : List (Char × Text)) (cs : List Call) :
    ∃ b, ({} : Bank).load (entriesOf initial) = (b, none) ∧
      (∀ c, nameOf (.string (String.singleton c)) = .ok c ∧
        (b.run cs).get c = ((record initial cs).reverse.lookup c).getD []) ∧
      (b.run cs).names = (unnamed :: (record initial cs).map Prod.fst).eraseDups ∧
      (b.run cs).names.head? = some unnamed ∧ (b.run cs).names.Nodup ∧
      (∀ call : Call, ((b.run cs).call call).2 = none ↔ ¬ call.Misnamed) ∧
      ∀ name text, (Call.set name text).Misnamed → ((b.run cs).call (.set name text)).1 = b.run cs := by
  obtain ⟨b, hb⟩ : ∃ b, ({} : Bank).load (entriesOf initial) = (b, none) :=
    ⟨_, Prod.ext rfl (load_entriesOf {} initial)⟩
  have hslots := run_slots_of_load hb cs
  have hnames : (b.run cs).names = (unnamed :: (record initial cs).map Prod.fst).eraseDups := by
    rw [names, hslots, Assoc.keys_ofList, List.map_cons]
  have hnodup : (b.run cs).names.Nodup := by
    rw [names, hslots]
    exact Assoc.nodup_ofList _
  refine ⟨b, hb, fun c => ⟨nameOf_singleton c, get_of_slots hslots c⟩, hnames, ?_, hnodup,
    fun call => (call_writes _ call).2, fun name text hbad => ?_⟩
  · rw [hnames, List.eraseDups_cons, List.head?_cons]
  · rcases nameOf_label name with ⟨c, hc, -⟩ | ⟨-, e, he⟩
    · exact absurd (hbad.symm.trans hc) (Option.some_ne_none c).symm
    · rw [call, he]

/-- The unnamed register keeps what was set last, since loading passes it over; what stands behind a name
that is refused is not loaded. -/
theorem record_up_to_refused_name :
    let cs := [Call.set (.text "a") ['x'], .load [("b", ['y']), ("long", ['z']), ("c", ['z'])]]
    ∃ b, ({} : Bank).load (entriesOf [('d', ['w'])]) = (b, none) ∧
      (b.run cs).names = ['"', 'd', 'a', 'b'] ∧ (b.run cs).get unnamed = ['x'] ∧
      (b.run cs).get 'b' = ['y'] ∧ (b.run cs).get 'c' = [] ∧
      ((b.run cs).call (.set (.text "long") [])).1 = b.run cs := by
  intro cs
  obtain ⟨b, hb, hget, hnames, -, -, -, hkeep⟩ := run_is_record [('d', ['w'])] cs
  have hlong : (Call.set (.text "long") []).Misnamed := rfl
  refine ⟨b, hb, hnames.trans (by decide +kernel), (hget unnamed).2.trans (by decide +kernel),
    (hget 'b').2.trans (by decide +kernel), (hget 'c').2.trans (by decide +kernel), hkeep _ _ hlong⟩

end ModalEditing.Bank
