import Mathlib.Data.Nat.Notation
import ModalEditing.Proofs.Maps
import ModalEditing.Disk

namespace ModalEditing

namespace Path

/-- A null character is in the path as it is written. -/
def HasNull (p : Path) : Prop := '\x00' ∈ p.toString.toList

instance (p : Path) : Decidable p.HasNull := inferInstanceAs (Decidable ('\x00' ∈ p.toString.toList))

/-- A path as it is written begins with the one it lies in, but for the empty one. -/
theorem toString_append (root : String) (parts : List String) (part : String) :
    (root = "" ∧ parts = []) ∨ ∃ more, Path.toString ⟨root, parts ++ [part]⟩
      = Path.toString ⟨root, parts⟩ ++ more := by
  have hne : (parts ++ [part]).isEmpty = false := by simp
  by_cases hp : parts = []
  · by_cases hr : root = ""
    · exact .inl ⟨hr, hp⟩
    · refine .inr ⟨part, ?_⟩
      simp [Path.toString, hp, hr]
  · refine .inr ⟨"/" ++ part, ?_⟩
    have hp' : parts.isEmpty = false := by simp [hp]
    simp only [Path.toString, hne, hp', Bool.and_false, Bool.false_eq_true, if_false,
      String.intercalate_append_of_ne_nil hp (List.cons_ne_nil part []), String.intercalate_singleton,
      String.append_assoc]

theorem HasNull.append {root : String} {parts : List String} (h : HasNull ⟨root, parts⟩)
    (part : String) : HasNull ⟨root, parts ++ [part]⟩ := by
  rcases toString_append root parts part with ⟨rfl, rfl⟩ | ⟨more, hmore⟩
  · exact absurd h (by decide)
  · rw [HasNull, hmore, String.toList_append]
    exact List.mem_append_left _ h

theorem size_of_append {root : String} {parts : List String} {part : String} {n : ℕ} (hn : 1 < n)
    (h : (Path.toString ⟨root, parts ++ [part]⟩).utf8ByteSize < n) :
    (Path.toString ⟨root, parts⟩).utf8ByteSize < n := by
  rcases toString_append root parts part with ⟨rfl, rfl⟩ | ⟨more, hmore⟩
  · exact hn
  · rw [hmore, String.utf8ByteSize_append] at h
    omega

/-- A path has no parts and is its own parent, or lies in its parent. -/
theorem parent_cases (p : Path) : (p.parent = p ∧ p.parts = []) ∨
    ∃ part, p = ⟨p.parent.root, p.parent.parts ++ [part]⟩ := by
  obtain ⟨root, parts⟩ := p
  rcases List.eq_nil_or_concat parts with rfl | ⟨front, part, rfl⟩
  · exact .inl ⟨rfl, rfl⟩
  · refine .inr ⟨part, ?_⟩
    simp [parent]

theorem HasNull.of_parent {p : Path} (h : p.parent.HasNull) : p.HasNull := by
  rcases parent_cases p with ⟨hp, -⟩ | ⟨part, hp⟩
  · exact hp ▸ h
  · rw [hp]
    exact h.append part

end Path

namespace Disk
variable {d d' : Disk} {p : Path} {place : List String}

def content? (d : Disk) (p : Path) : Option ByteArray := (d.read p).toOption

def start (d : Disk) (p : Path) : List String := if p.root = "" then d.home else []

theorem locate_eq_ok : d.locate p = .ok place ↔
    ¬ p.HasNull ∧ p.toString.utf8ByteSize < pathLimit ∧ d.walk (d.start p) p.parts = .ok place := by
  rw [locate, start, Path.HasNull, ← List.contains_iff_mem]
  split
  · rename_i hnull
    exact ⟨fun h => (by cases h), fun h => absurd hnull h.1⟩
  · rename_i hnull
    split
    · rename_i hlong
      exact ⟨fun h => (by cases h), fun h => absurd h.2.1 (Nat.not_lt.mpr hlong)⟩
    · rename_i hshort
      exact ⟨fun h => ⟨hnull, Nat.not_le.mp hshort, h⟩, fun h => h.2.2⟩

theorem walk_ne_null {parts : List String} : d.walk place parts ≠ .error .nullCharacter := by
  induction parts generalizing place with
  | nil => simp [walk]
  | cons part parts ih =>
    rw [walk]
    split
    · simp
    · simp
    · split
      · simp
      · exact ih

theorem locate_null : d.locate p = .error .nullCharacter ↔ p.HasNull := by
  rw [locate, Path.HasNull, ← List.contains_iff_mem]
  split
  · simp_all
  · split
    · simp_all
    · simp_all [walk_ne_null]

/-- Everything on the first disk is on the second, and nothing else if it was sealed. -/
structure Extends (d d' : Disk) : Prop where
  home : d'.home = d.home
  entries : ∀ {place e}, d.entry? place = some e → d'.entry? place = some e
  unsealed : d'.isSealed = d.isSealed
  same : d.isSealed = true → d' = d

namespace Extends

theorem refl (d : Disk) : Extends d d := ⟨rfl, fun h => h, rfl, fun _ => rfl⟩

theorem trans {d'' : Disk} (h : Extends d d') (h' : Extends d' d'') : Extends d d'' := by
  refine ⟨h'.home.trans h.home, fun he => h'.entries (h.entries he), h'.unsealed.trans h.unsealed, ?_⟩
  intro hs
  obtain rfl := h.same hs
  exact h'.same hs

theorem walk (h : Extends d d') {parts r : List String} (hw : d.walk place parts = .ok r) :
    d'.walk place parts = .ok r := by
  induction parts generalizing place with
  | nil => exact hw
  | cons part parts ih =>
    rw [Disk.walk] at hw ⊢
    split at hw
    · cases hw
    · cases hw
    · rename_i he
      rw [h.entries he]
      dsimp only
      split at hw
      · cases hw
      · rw [if_neg (by assumption)]
        exact ih hw

theorem locate (h : Extends d d') (hl : d.locate p = .ok place) : d'.locate p = .ok place := by
  obtain ⟨hn, hs, hw⟩ := locate_eq_ok.mp hl
  have hstart : d'.start p = d.start p := by rw [start, start, h.home]
  exact locate_eq_ok.mpr ⟨hn, hs, hstart ▸ h.walk hw⟩

theorem read (h : Extends d d') {bytes : ByteArray} (hr : d.read p = .ok bytes) :
    d'.read p = .ok bytes := by
  rw [Disk.read] at hr ⊢
  split at hr
  · cases hr
  · rename_i hl
    rw [h.locate hl]
    dsimp only
    split at hr
    · cases hr
    · cases hr
    · rename_i he
      rw [h.entries he]
      exact hr

end Extends

theorem walk_append {parts r : List String} {part : String}
    (h : d.walk place (parts ++ [part]) = .ok r) :
    ∃ q, d.walk place parts = .ok q ∧ d.entry? q = some .dir := by
  induction parts generalizing place with
  | nil =>
    refine ⟨place, rfl, ?_⟩
    rw [List.nil_append, walk] at h
    split at h
    · cases h
    · cases h
    · assumption
  | cons x parts ih =>
    rw [List.cons_append, walk] at h
    rw [walk]
    split at h
    · cases h
    · cases h
    · split at h
      · cases h
      · rw [if_neg (by assumption)]
        exact ih h

/-- What lies in another thing lies in a directory. -/
theorem isDir_of_locate {root : String} {parts : List String} {part : String}
    (h : d.locate ⟨root, parts ++ [part]⟩ = .ok place) : d.isDir ⟨root, parts⟩ = true := by
  obtain ⟨hn, hs, hw⟩ := locate_eq_ok.mp h
  obtain ⟨q, hq, hdir⟩ := walk_append hw
  have hl : d.locate ⟨root, parts⟩ = .ok q :=
    locate_eq_ok.mpr ⟨fun hnull => hn (hnull.append part), Path.size_of_append (by decide) hs, hq⟩
  rw [isDir, hl]
  exact decide_eq_true hdir

theorem isDir_append {root : String} {parts : List String} {part : String}
    (h : d.isDir ⟨root, parts ++ [part]⟩ = true) : d.isDir ⟨root, parts⟩ = true := by
  cases hl : d.locate ⟨root, parts ++ [part]⟩ with
  | error e =>
    rw [isDir, hl] at h
    cases h
  | ok place => exact isDir_of_locate hl

theorem locate_of_content {bytes : ByteArray} (h : d.content? p = some bytes) :
    ∃ place, d.locate p = .ok place := by
  cases hl : d.locate p with
  | ok place => exact ⟨place, rfl⟩
  | error e =>
    rw [content?, read, hl] at h
    cases h

theorem Extends.content? (h : Extends d d') {bytes : ByteArray} (hc : d.content? p = some bytes) :
    d'.content? p = some bytes := by
  cases hr : d.read p with
  | error e =>
    rw [Disk.content?, hr] at hc
    cases hc
  | ok b =>
    rw [Disk.content?, hr] at hc
    rw [Disk.content?, h.read hr]
    exact hc

section Directories
variable {e : Failure} {root : String} {up : List String}

theorem entry?_put (hplace : d.entry? place = none) (x : DiskEntry) {q : List String} {e : DiskEntry}
    (he : d.entry? q = some e) :
    entry? { d with entries := Assoc.put place x d.entries } q = some e := by
  have hne : place ≠ q := by
    rintro rfl
    rw [hplace] at he
    cases he
  by_cases hq : q.isEmpty
  · rw [ entry?, if_pos hq] at he ⊢
    exact he
  · rw [ entry?, if_neg hq] at he ⊢
    rw [Assoc.get?_put_of_ne hne]
    exact he

theorem makeDir_extends (h : d.makeDir p = .ok d') : Extends d d' := by
  rw [makeDir] at h
  split at h
  · cases h
  · split at h
    · cases h
    · rename_i hnone
      split at h
      · cases h
      · rename_i hsealed
        obtain rfl := Except.ok.inj h
        exact ⟨rfl, entry?_put (Option.not_isSome_iff_eq_none.mp hnone) .dir, rfl,
          fun hs => absurd hs hsealed⟩

theorem isDir_of_makeDir_notFound (h : d.makeDir p = .error .notFound) : d.isDir p = false := by
  rw [makeDir] at h
  rw [isDir]
  split at h
  · rfl
  · split at h
    · cases h
    · split at h <;> cases h

theorem makeDir_null : d.makeDir p = .error .nullCharacter ↔ p.HasNull := by
  rw [← locate_null (d := d), makeDir]
  split
  · simp_all
  · simp_all
    split
    · simp
    · split <;> simp

theorem ensureDir_of_error (h : d.makeDir p = .error e) (hne : e ≠ .nullCharacter) :
    d.ensureDir p = (d, if e ≠ .notFound && d.isDir p then none else some e) := by
  rw [ensureDir, h]
  cases e <;> first | rfl | contradiction

theorem ensureDir_of_isDir (h : d.isDir p = true) : d.ensureDir p = (d, none) := by
  have hexists : d.makeDir p = .error .exists := by
    rw [isDir] at h
    rw [makeDir]
    split at h
    · cases h
    · rename_i hl
      rw [of_decide_eq_true h]
      rfl
  rw [ensureDir_of_error hexists (by decide), h]
  rfl

/-- A directory is there afterwards, or the disk is the same and the path leads to none. -/
theorem ensureDir_cases (d : Disk) (p : Path) :
    ((d.ensureDir p).2 = none ∧ ¬ p.HasNull ∧ Extends d (d.ensureDir p).1) ∨
      ((d.ensureDir p).1 = d ∧ d.isDir p = false ∧
        ∃ e, (d.ensureDir p).2 = some e ∧ (e = .nullCharacter ↔ p.HasNull)) := by
  cases hm : d.makeDir p with
  | ok d' =>
    have hnull : ¬ p.HasNull := by
      intro h
      rw [makeDir_null.mpr h] at hm
      cases hm
    left
    rw [ensureDir, hm]
    exact ⟨rfl, hnull, makeDir_extends hm⟩
  | error e =>
    by_cases hnull : p.HasNull
    · have hlocate := locate_null (d := d) |>.mpr hnull
      right
      rw [ensureDir, makeDir_null.mpr hnull, isDir, hlocate]
      exact ⟨rfl, rfl, _, rfl, fun _ => hnull, fun _ => rfl⟩
    · have hne : e ≠ .nullCharacter := by
        rintro rfl
        exact hnull (makeDir_null.mp hm)
      rw [ensureDir_of_error hm hne]
      by_cases hdir : e ≠ .notFound && d.isDir p
      · left
        rw [if_pos hdir]
        exact ⟨rfl, hnull, .refl d⟩
      · right
        rw [if_neg hdir]
        refine ⟨rfl, ?_, e, rfl, fun h => absurd h hne, fun h => absurd h hnull⟩
        by_cases hfound : e = .notFound
        · exact isDir_of_makeDir_notFound (hfound ▸ hm)
        · simpa [hfound] using hdir

/-- Only a directory that was not found is tried again, once those it lies in are there. -/
theorem makeDirs_cons (d : Disk) (root : String) (part : String) (up : List String) :
    d.makeDirs root (part :: up) =
      if (d.ensureDir ⟨root, up.reverse ++ [part]⟩).2 = some .notFound then
        if ((d.ensureDir ⟨root, up.reverse ++ [part]⟩).1.makeDirs root up).2 = none then
          ((d.ensureDir ⟨root, up.reverse ++ [part]⟩).1.makeDirs root up).1.ensureDir
            ⟨root, up.reverse ++ [part]⟩
        else (d.ensureDir ⟨root, up.reverse ++ [part]⟩).1.makeDirs root up
      else d.ensureDir ⟨root, up.reverse ++ [part]⟩ := by
  rw [makeDirs, List.reverse_cons]
  generalize d.ensureDir ⟨root, up.reverse ++ [part]⟩ = r
  obtain ⟨d', r⟩ := r
  dsimp only
  split
  · rename_i h
    obtain ⟨rfl, rfl⟩ := Prod.mk.inj h
    rw [if_pos rfl]
    split
    · rename_i h
      rw [h, if_neg (by simp)]
    · rename_i h
      rw [h, if_pos rfl]
  · rename_i h
    rw [if_neg]
    rintro rfl
    exact h d' rfl

/-- The directories on the way are there afterwards, or the path leads to none. -/
theorem makeDirs_cases (d : Disk) (root : String) (up : List String) :
    Extends d (d.makeDirs root up).1 ∧
      (((d.makeDirs root up).2 = none ∧ ¬ Path.HasNull ⟨root, up.reverse⟩) ∨
        ((d.makeDirs root up).1.isDir ⟨root, up.reverse⟩ = false ∧
          ∃ e, (d.makeDirs root up).2 = some e ∧
            (e = .nullCharacter ↔ Path.HasNull ⟨root, up.reverse⟩))) := by
  induction up generalizing d with
  | nil =>
    rw [makeDirs]
    rcases ensureDir_cases d ⟨root, []⟩ with ⟨hnone, hnull, hext⟩ | ⟨hsame, hdir, he⟩
    · exact ⟨hext, .inl ⟨hnone, hnull⟩⟩
    · rw [hsame]
      exact ⟨.refl d, .inr ⟨hdir, he⟩⟩
  | cons part up ih =>
    rw [makeDirs_cons, List.reverse_cons]
    rcases ensureDir_cases d ⟨root, up.reverse ++ [part]⟩ with
      ⟨hnone, hnull, hext⟩ | ⟨hsame, hdir, e, he, hiff⟩
    · rw [if_neg (by rw [hnone]; simp)]
      exact ⟨hext, .inl ⟨hnone, hnull⟩⟩
    · rw [hsame]
      split
      · rename_i hfound
        obtain rfl := Option.some.inj (he.symm.trans hfound)
        have hnull : ¬ Path.HasNull ⟨root, up.reverse ++ [part]⟩ := fun h => by cases hiff.mpr h
        obtain ⟨hext, hmade⟩ := ih d
        split
        · -- The directories before it were made, so it is tried again.
          rcases ensureDir_cases (d.makeDirs root up).1 ⟨root, up.reverse ++ [part]⟩ with
            ⟨hnone, -, hext'⟩ | ⟨hsame, hdir, he⟩
          · exact ⟨hext.trans hext', .inl ⟨hnone, hnull⟩⟩
          · rw [hsame]
            exact ⟨hext, .inr ⟨hdir, he⟩⟩
        · rename_i hfailed
          obtain ⟨hnone, -⟩ | ⟨hup, e, he, hiff⟩ := hmade
          · exact absurd hnone hfailed
          · refine ⟨hext, .inr ⟨?_, e, he, fun h => ?_, fun h => absurd h hnull⟩⟩
            · rw [← Bool.not_eq_true] at hup ⊢
              exact fun hdir => hup (isDir_append hdir)
            · exact absurd ((hiff.mp h).append part) hnull
      · rw [hsame]
        exact ⟨.refl d, .inr ⟨hdir, e, he, hiff⟩⟩

end Directories

/-- The disk once the directory of a path was made as far as that went, and what was in the way. -/
def prepared (d : Disk) (p : Path) : Disk × Option Failure :=
  d.makeDirs p.parent.root p.parent.parts.reverse

/-- Where the directory is there, nothing is made. -/
theorem prepared_of_isDir (h : d.isDir p.parent = true) : d.prepared p = (d, none) := by
  rw [prepared]
  generalize p.parent = q at h ⊢
  obtain ⟨root, parts⟩ := q
  have hreverse : parts = parts.reverse.reverse := parts.reverse_reverse.symm
  rw [hreverse] at h
  generalize parts.reverse = up at h
  cases up with
  | nil => exact ensureDir_of_isDir h
  | cons part up =>
    rw [List.reverse_cons] at h
    rw [makeDirs_cons, ensureDir_of_isDir h, if_neg (by simp)]

theorem prepared_extends (d : Disk) (p : Path) : Extends d (d.prepared p).1 := (makeDirs_cases d _ _).1

theorem prepared_null : (d.prepared p).2 = some .nullCharacter ↔ p.parent.HasNull := by
  have hcases := (makeDirs_cases d p.parent.root p.parent.parts.reverse).2
  rw [List.reverse_reverse] at hcases
  rcases hcases with ⟨hnone, hnull⟩ | ⟨-, e, he, hiff⟩
  · rw [prepared, hnone]
    refine ⟨fun h => ?_, fun h => absurd h hnull⟩
    cases h
  · rw [prepared, he, Option.some.injEq]
    exact hiff

/-- Where the directory cannot be made, the file is what it was. -/
theorem content?_of_unprepared (h : (d.prepared p).2 ≠ none) :
    (d.prepared p).1.content? p = d.content? p := by
  have hext := prepared_extends d p
  rcases Path.parent_cases p with ⟨hparent, hparts⟩ | ⟨part, hp⟩
  · have hprepared : d.prepared p = d.ensureDir ⟨p.parent.root, []⟩ := by
      rw [prepared, hparent, hparts, List.reverse_nil, makeDirs]
    rw [hprepared] at h ⊢
    rcases ensureDir_cases d ⟨p.parent.root, []⟩ with ⟨hnone, -⟩ | ⟨hsame, -⟩
    · exact absurd hnone h
    · rw [hsame]
  · -- There is no file yet where its directory is missing, and none afterwards.
    cases hc : d.content? p with
    | some bytes => exact hext.content? hc
    | none =>
      obtain ⟨hnone, -⟩ | ⟨hdir, -⟩ := (makeDirs_cases d p.parent.root p.parent.parts.reverse).2
      · exact absurd hnone h
      · cases hc' : (d.prepared p).1.content? p with
        | none => rfl
        | some bytes =>
          obtain ⟨place, hl⟩ := locate_of_content hc'
          rw [hp] at hl
          rw [List.reverse_reverse] at hdir
          have hdir' := isDir_of_locate hl
          rw [← hp] at hdir'
          exact absurd (hdir'.symm.trans hdir) (by decide)

theorem write_null {bytes : ByteArray} : d.write p bytes = .error .nullCharacter ↔ p.HasNull := by
  rw [← locate_null (d := d), write]
  split
  · simp_all
  · simp_all
    split
    · simp
    · split <;> simp

/-- Where the file cannot be written, it is what it was. -/
theorem content?_of_unwritten (hext : Extends d d') {bytes : ByteArray} {e : Failure}
    (h : d'.write p bytes = .error e) : d'.content? p = d.content? p := by
  -- On a sealed disk no directory was made either; on others only a directory is in the way.
  by_cases hsealed : d.isSealed = true
  · rw [hext.same hsealed]
  · have hnone : d'.content? p = none := by
      rw [write] at h
      rw [content?, read]
      split at h
      · rfl
      · split at h
        · rename_i hdir
          rw [hdir]
          rfl
        · split at h
          · rename_i hsealed'
            exact absurd (hext.unsealed ▸ hsealed') hsealed
          · cases h
    cases hc : d.content? p with
    | none => exact hnone
    | some bytes => exact hext.content? hc

/-- Nothing on the way to a file is that file. -/
theorem walk_put (hplace : d.entry? place ≠ some .dir) (x : DiskEntry) {q parts r : List String}
    (h : d.walk q parts = .ok r) :
    walk { d with entries := Assoc.put place x d.entries } q parts = .ok r := by
  induction parts generalizing q with
  | nil => exact h
  | cons part parts ih =>
    rw [walk] at h ⊢
    split at h
    · cases h
    · cases h
    · rename_i hdir
      have hne : place ≠ q := by
        rintro rfl
        exact hplace hdir
      have hentry : entry? { d with entries := Assoc.put place x d.entries } q = some .dir := by
        rw [ entry?] at hdir ⊢
        rw [Assoc.get?_put_of_ne hne]
        exact hdir
      rw [hentry]
      dsimp only
      split at h
      · cases h
      · rw [if_neg (by assumption)]
        exact ih h

/-- What was written is read. -/
theorem read_write {bytes : ByteArray} (h : d.write p bytes = .ok d') : d'.read p = .ok bytes := by
  rw [write] at h
  split at h
  · cases h
  · rename_i place hl
    split at h
    · cases h
    · rename_i hdir
      split at h
      · cases h
      · obtain rfl := Except.ok.inj h
        obtain ⟨hn, hs, hw⟩ := locate_eq_ok.mp hl
        have hlocate : locate { d with entries := Assoc.put place (.file bytes) d.entries } p = .ok place :=
          locate_eq_ok.mpr ⟨hn, hs, walk_put hdir (.file bytes) hw⟩
        have hplace : place.isEmpty = false := by
          cases place with
          | nil => exact absurd rfl hdir
          | cons => rfl
        rw [read, hlocate]
        dsimp only
        rw [ entry?, hplace, Assoc.get?_put_self]
        rfl

end Disk
end ModalEditing
