/-
**Two disks, changed alike.**

Operations look at a disk only where their path leads, and change it only there.  So on two disks
that show the same at a path, an operation says the same, and does the same.  This holds of disks
that look the same everywhere, and of plain disks that differ in one entry of a cache, for all paths
that do not lead over it; an operation on that entry itself lets it be the same on both.

Main definitions:

* `ReleaseFetch.Disk.Follows` — two disks show the same at a path, and changes there keep them
  related;
* `ReleaseFetch.Disk.Same` — operations that say the same, and leave related disks;
* `ReleaseFetch.Disk.Slot`, `ReleaseFetch.Disk.Near` — disks with a cache, which differ in one entry
  of it at most.

Main results:

* `ReleaseFetch.Disk.Agrees.follows`, `ReleaseFetch.Disk.Near.follows` — the two relations that
  operations keep;
* `ReleaseFetch.Disk.Near.replace`, `ReleaseFetch.Disk.Near.unlink` — a file that is moved to the
  entry, or removed from it.
-/

import ReleaseFetch.Proofs.Disk.Building
import ReleaseFetch.Proofs.Disk.Turning

set_option autoImplicit false

namespace ReleaseFetch.Disk

variable {R : Disk → Disk → Prop} {d e : Disk} {p : Path}

/-! ### Operations on both disks -/

/-- What an operation finds says where the walk ends. -/
theorem locate_of_find {follow : Bool} (hnul : hasNul p = false)
    (h : d.find follow p = e.find follow p) : d.locate follow p = e.locate follow p := by
  unfold find at h
  simp only [hnul, Bool.false_eq_true, if_false] at h
  cases hd : d.locate follow p <;> cases he : e.locate follow p <;> simp_all [failAt]

/-- Two disks show the same at a path, and changes there keep them related. -/
structure Follows (R : Disk → Disk → Prop) (p : Path) (d e : Disk) : Prop where
  related : R d e
  find : ∀ follow, d.find follow p = e.find follow p
  put : ∀ {follow : Bool} {q : Place} {x : Entry}, d.find follow p = .ok q →
    q.entry ≠ some .directory → (∀ t, x ≠ .link t) → R (d.put q.location x) (e.put q.location x)
  erase : ∀ {follow : Bool} {q : Place}, d.find follow p = .ok q → q.entry ≠ some .directory →
    R (d.erase q.location) (e.erase q.location)

/-- Two operations say the same, and leave related disks. -/
inductive Same (R : Disk → Disk → Prop) : Except Failure Disk → Except Failure Disk → Prop where
  | error (f : Failure) : Same R (.error f) (.error f)
  | ok {d e : Disk} (related : R d e) : Same R (.ok d) (.ok e)

namespace Follows

theorem makeDirectory (h : Follows R p d e) : Same R (d.makeDirectory p) (e.makeDirectory p) := by
  unfold Disk.makeDirectory
  rw [← h.find]
  cases hfind : d.find false p with
  | error f => exact .error f
  | ok q =>
      simp only
      cases hq : q.entry with
      | none => exact .ok (h.put hfind (by simp [hq]) (by simp))
      | some x => exact .error _

theorem unlink (h : Follows R p d e) : Same R (d.unlink p) (e.unlink p) := by
  unfold Disk.unlink
  rw [← h.find]
  cases hfind : d.find false p with
  | error f => exact .error f
  | ok q =>
      simp only
      split
      · exact .error _
      · exact .error _
      · next x hne hx => exact .ok (h.erase hfind fun hdir => hne (Option.some.inj (hx.symm.trans hdir)))

theorem status (h : Follows R p d e) : d.status p = e.status p := by
  unfold Disk.status
  rw [h.find]

theorem append (h : Follows R p d e) (more : List UInt8) :
    Same R (d.append p more) (e.append p more) := by
  unfold Disk.append
  rw [← h.status]
  cases hstatus : d.status p with
  | error f => exact .error f
  | ok q =>
      simp only
      split
      · next b m hx =>
        exact .ok (h.put (status_eq_ok_iff.1 hstatus).1 (by simp [hx]) (by simp))
      · exact .error _

theorem setMode (h : Follows R p d e) (mode : Nat) :
    Same R (d.setMode p mode) (e.setMode p mode) := by
  unfold Disk.setMode
  rw [← h.status]
  cases hstatus : d.status p with
  | error f => exact .error f
  | ok q =>
      simp only
      split
      · next b m hx =>
        exact .ok (h.put (status_eq_ok_iff.1 hstatus).1 (by simp [hx]) (by simp))
      · exact .ok h.related

theorem write (h : Follows R p d e) (b : List UInt8) : Same R (d.write p b) (e.write p b) := by
  unfold Disk.write
  rw [← h.find]
  cases hfind : d.find true p with
  | error f => exact .error f
  | ok q =>
      simp only
      split
      · next hx => exact .ok (h.put hfind (by simp [hx]) (by simp))
      · next b' m hx => exact .ok (h.put hfind (by simp [hx]) (by simp))
      · exact .error _

/-- A new file is made on both disks, or on neither. -/
theorem createNew (h : Follows R p d e) :
    (∃ f, d.createNew p = .error f ∧ e.createNew p = .error f) ∨
      (d.createNew p = .ok none ∧ e.createNew p = .ok none) ∨
        ∃ d' e', d.createNew p = .ok (some d') ∧ e.createNew p = .ok (some e') ∧ R d' e' := by
  unfold Disk.createNew
  rw [← h.find]
  cases hfind : d.find false p with
  | error f => exact .inl ⟨f, rfl, rfl⟩
  | ok q =>
      simp only
      cases hq : q.entry with
      | none => exact .inr (.inr ⟨_, _, rfl, rfl, h.put hfind (by simp [hq]) (by simp)⟩)
      | some x => exact .inr (.inl ⟨rfl, rfl⟩)

theorem isDirectory? (h : Follows R p d e) : d.isDirectory? p = e.isDirectory? p := by
  unfold Disk.isDirectory? ask
  rw [h.status]

end Follows

/-! ### Disks that look the same -/

namespace Agrees

/-- Disks that look the same do so after every change. -/
theorem follows (h : d.Agrees e) (p : Path) : Follows Agrees p d e where
  related := h
  find follow := h.find follow p
  put _ _ _ := h.put _ _
  erase _ _ := h.erase _

theorem copyFile (h : d.Agrees e) (source destination : Path) :
    Same Agrees (d.copyFile source destination) (e.copyFile source destination) := by
  have hsame : d.isSame source destination = e.isSame source destination := by
    unfold isSame
    rw [h.status, h.status]
  have hread : d.read source = e.read source := by
    unfold Disk.read
    rw [h.find]
  unfold Disk.copyFile
  rw [hsame, hread]
  split
  · exact .error _
  · split
    · exact .error _
    · cases e.read source with
      | error f => exact .error f
      | ok b => exact (h.follows destination).write b

theorem replace (h : d.Agrees e) (source destination : Path) :
    Same Agrees (d.replace source destination) (e.replace source destination) := by
  unfold Disk.replace
  simp only [← h.locate]
  split
  · exact .error _
  · split
    · exact .error _
    · exact .error _
    · split
      · exact .error _
      · split
        · exact .error _
        · split
          · exact .error _
          · exact .ok ((h.erase _).put _ _)

end Agrees

/-! ### Paths that keep away from a location -/

/-- A path that only goes down, and not over a location. -/
structure Avoids (a : Location) (d : Disk) (p : Path) : Prop where
  isName : ∀ n ∈ p.names, IsName n
  away : ¬a <:+ d.locationOf p

namespace Avoids

variable {a l : Location} {names : List String} {follow : Bool}

theorem parent (h : Avoids a d p) : Avoids a d p.parent :=
  ⟨fun n hn => h.isName n (List.dropLast_subset _ hn),
    fun haway => h.away (haway.trans (locationOf_parent_suffix h.isName d))⟩

theorem ne (h : Avoids a d p) : d.locationOf p ≠ a := by
  rintro rfl
  exact h.away (List.suffix_refl _)

theorem start_ne (h : Avoids a d p) : d.start p ≠ a := by
  rintro rfl
  exact h.away ⟨p.names.reverse, (lead_of_names h.isName _).symm⟩

theorem of_here (h : Avoids a d p) (hhere : e.here = d.here) : Avoids a e p := by
  refine ⟨h.isName, ?_⟩
  rw [locationOf_of_here hhere]
  exact h.away

/-- Names that keep away from the location where two disks differ are walked in the same way. -/
theorem advance_eq (hother : ∀ {l}, l ≠ a → d.get? l = e.get? l) (hnames : ∀ n ∈ names, IsName n)
    (haway : ¬a <:+ names.reverse ++ l) : d.advance follow l names = e.advance follow l names := by
  induction names generalizing l with
  | nil => rfl
  | cons n rest ih =>
      have hstep : (n :: rest).reverse ++ l = rest.reverse ++ n :: l := by simp
      rw [hstep] at haway
      have hne : n :: l ≠ a := by
        rintro rfl
        exact haway (List.suffix_append _ _)
      have hrest := ih (fun m hm => hnames m (List.mem_cons_of_mem _ hm)) haway
      simp only [Disk.advance, hother hne, hrest, if_neg (hnames n (by simp)).1,
        if_neg (hnames n (by simp)).2]

/-- **A path that keeps away from the location where two plain disks differ leads to the same place
on both.** -/
theorem locate_eq (h : Avoids a d p) (hd : d.Plain) (he : e.Plain) (hhere : e.here = d.here)
    (hother : ∀ {l}, l ≠ a → d.get? l = e.get? l) (follow : Bool) :
    d.locate follow p = e.locate follow p := by
  have hdir : d.get? (d.start p) = e.get? (d.start p) := hother h.start_ne
  have hloc : lead (d.start p) p.names = p.names.reverse ++ d.start p := lead_of_names h.isName _
  have hadvance : d.advance follow (d.start p) p.names = e.advance follow (d.start p) p.names :=
    advance_eq hother h.isName (hloc ▸ h.away)
  have hwalk (hwalks : p.names = [] ∨ d.get? (d.start p) = some .directory) :
      d.walk follow linkLimit (d.start p) p.names =
        e.walk follow linkLimit (d.start p) p.names := by
    rcases hwalks with hnil | hl
    · rw [hnil]
      exact (walk_place rfl).trans (walk_place rfl).symm
    · -- without links, a walk is a single advance
      have hend : d.get? (lead (d.start p) p.names) = e.get? (lead (d.start p) p.names) :=
        hother h.ne
      rw [walk_eq hd hl, walk_eq he (hdir ▸ hl), hadvance, hend]
  unfold locate
  simp only [start_of_here hhere, ← hdir]
  by_cases hwalks : p.names = [] ∨ d.get? (d.start p) = some .directory
  · rw [hwalk hwalks]
  · obtain ⟨hne, hvacant⟩ := not_or.1 hwalks
    simp [hne, hvacant]

end Avoids

/-! ### Disks that differ in one entry of a cache -/

/-- A plain disk that has a cache, seen from the directory of a first disk. -/
structure Stocked (base : Disk) (cache : Path) (d : Disk) : Prop where
  plain : d.Plain
  here : d.here = base.here
  there : d.isDirectory? cache = .ok true
  directory : d.get? (base.locationOf cache) = some .directory

namespace Stocked

variable {base : Disk} {cache : Path} {name : String} {S : Location → Prop}

theorem locationOf (h : Stocked base cache d) (p : Path) :
    d.locationOf p = base.locationOf p := locationOf_of_here h.here p

/-- The cache stays while files change and directories are made. -/
theorem edited (h : Stocked base cache d) (he : Edited S d e) : Stocked base cache e := by
  have hdir := he.directory h.directory
  refine ⟨he.plain, he.here.trans h.here, ?_, hdir⟩
  obtain ⟨m, hm⟩ := isDirectory?_iff.1 h.there
  have hfind : e.find true cache = _ := he.toWithin.find h.plain he.plain hm
  rw [seen, he.locationOf, h.locationOf, hdir, ite_self] at hfind
  exact isDirectory?_iff.2 ⟨_, hfind⟩

/-- An entry of the cache can be found, unless its name or its path is too long. -/
theorem find_child_cases (h : Stocked base cache d) (hname : IsEntryName name)
    (hnul : '\x00' ∉ name.toList) :
    (Fits (cache.child name) ∧ d.find false (cache.child name) =
        .ok ⟨name :: base.locationOf cache, d.get? (name :: base.locationOf cache)⟩) ∨
      ¬Fits (cache.child name) ∧ ∃ f, d.find false (cache.child name) = .error f := by
  obtain ⟨m, hm⟩ := isDirectory?_iff.1 h.there
  obtain ⟨-, -, hplace⟩ := find_ok h.plain hm
  obtain ⟨rfl, -⟩ := Place.mk.inj hplace
  have hstart : cache.names = [] → d.get? (d.start cache) = some .directory := by
    intro hnil
    have hdir := h.directory
    rwa [← h.locationOf, Disk.locationOf, hnil, lead_nil] at hdir
  rw [Path.child_eq cache hname, ← h.locationOf]
  rcases find_concat hm hname.isName hnul hstart with hfound | ⟨hlong, hfail⟩
  · exact .inl hfound
  · exact .inr ⟨hlong, _, hfail⟩

theorem find_child (h : Stocked base cache d) (hname : IsEntryName name)
    (hnul : '\x00' ∉ name.toList) (hfits : Fits (cache.child name)) :
    d.find false (cache.child name) =
      .ok ⟨name :: base.locationOf cache, d.get? (name :: base.locationOf cache)⟩ := by
  rcases h.find_child_cases hname hnul with ⟨-, hfind⟩ | ⟨hlong, -⟩
  · exact hfind
  · exact absurd hfits hlong

end Stocked

/-- Two plain disks have a cache, and differ in one entry of it at most, which is no directory. -/
structure Near (base : Disk) (cache : Path) (name : String) (d e : Disk) : Prop where
  left : Stocked base cache d
  right : Stocked base cache e
  other : ∀ {l}, l ≠ name :: base.locationOf cache → d.get? l = e.get? l
  leftEntry : d.get? (name :: base.locationOf cache) ≠ some .directory
  rightEntry : e.get? (name :: base.locationOf cache) ≠ some .directory

namespace Near

variable {base : Disk} {cache q : Path} {name : String} {l : Location}

theorem here (h : Near base cache name d e) : e.here = d.here :=
  h.right.here.trans h.left.here.symm

theorem put (h : Near base cache name d e) (hl : l ≠ name :: base.locationOf cache)
    (hopen : d.Open l) (hopen' : e.Open l) {x : Entry} (hx : ∀ t, x ≠ .link t) :
    Near base cache name (d.put l x) (e.put l x) := by
  have hleft : Edited (· = l) d (d.put l x) := .put h.left.plain hopen hx (.inl rfl)
  have hright : Edited (· = l) e (e.put l x) := .put h.right.plain hopen' hx (.inl rfl)
  refine ⟨h.left.edited hleft, h.right.edited hright, ?_, ?_, ?_⟩
  · intro k hk
    rw [hopen.get?_put, hopen'.get?_put, h.other hk]
  · rw [hopen.get?_put, if_neg (Ne.symm hl)]
    exact h.leftEntry
  · rw [hopen'.get?_put, if_neg (Ne.symm hl)]
    exact h.rightEntry

theorem erase (h : Near base cache name d e) (hl : l ≠ name :: base.locationOf cache)
    (hopen : d.Open l) (hopen' : e.Open l) : Near base cache name (d.erase l) (e.erase l) := by
  have hne := hopen.ne_nil
  have hleft : Edited (· = l) d (d.erase l) := .erase h.left.plain hopen.vacant hne rfl
  have hright : Edited (· = l) e (e.erase l) := .erase h.right.plain hopen'.vacant hne rfl
  refine ⟨h.left.edited hleft, h.right.edited hright, ?_, ?_, ?_⟩
  · intro k hk
    exact get?_erase_eq (h.other hk) l
  · rw [get?_erase _ _ _ hne, if_neg (Ne.symm hl)]
    exact h.leftEntry
  · rw [get?_erase _ _ _ hne, if_neg (Ne.symm hl)]
    exact h.rightEntry

/-- **Away from the entry, operations keep the disks near each other.** -/
theorem follows (h : Near base cache name d e)
    (hp : Avoids (name :: base.locationOf cache) base p) :
    Follows (Near base cache name) p d e := by
  have hfind (follow : Bool) : d.find follow p = e.find follow p := by
    unfold find
    rw [(hp.of_here h.left.here).locate_eq h.left.plain h.right.plain h.here h.other]
  -- what is found and is no directory is an open location, on both disks
  have hopen {follow : Bool} {q : Place} (hq : d.find follow p = .ok q)
      (hdir : q.entry ≠ some .directory) :
      q.location ≠ name :: base.locationOf cache ∧ d.Open q.location ∧ e.Open q.location := by
    have hq' := (hfind follow).symm.trans hq
    obtain ⟨-, -, hplace⟩ := find_ok h.left.plain hq
    obtain ⟨-, -, hplace'⟩ := find_ok h.right.plain hq'
    have hloc : q.location = base.locationOf p :=
      (congrArg Place.location hplace).trans (h.left.locationOf p)
    have hseen : d.seen p ≠ some .directory := by rwa [hplace] at hdir
    have hseen' : e.seen p ≠ some .directory := by rwa [hplace'] at hdir
    have hleft := (find_open h.left.plain hq hseen).1
    have hright := (find_open h.right.plain hq' hseen').1
    rw [h.left.locationOf, ← hloc] at hleft
    rw [h.right.locationOf, ← hloc] at hright
    exact ⟨by rw [hloc]; exact hp.ne, hleft, hright⟩
  refine ⟨h, hfind, ?_, ?_⟩
  · intro follow q x hq hdir hx
    obtain ⟨hne, hleft, hright⟩ := hopen hq hdir
    exact h.put hne hleft hright hx
  · intro follow q hq hdir
    obtain ⟨hne, hleft, hright⟩ := hopen hq hdir
    exact h.erase hne hleft hright

/-- **Without the entry the disks are the same.** -/
theorem agrees_erase (h : Near base cache name d e) :
    (d.erase (name :: base.locationOf cache)).Agrees
      (e.erase (name :: base.locationOf cache)) := by
  refine ⟨fun k => ?_, h.here.symm⟩
  rw [get?_erase _ _ _ (by simp), get?_erase _ _ _ (by simp)]
  split
  · rfl
  · next hk => exact h.other hk

/-- **A file that is moved to the entry makes the disks the same.** -/
theorem replace (hp : Follows (Near base cache name) p d e) (hname : IsEntryName name)
    (hnul : '\x00' ∉ name.toList) (hfits : Fits (cache.child name)) :
    Same Agrees (d.replace p (cache.child name)) (e.replace p (cache.child name)) := by
  have h := hp.related
  obtain ⟨-, hasset, -⟩ := find_ok h.left.plain (h.left.find_child hname hnul hfits)
  obtain ⟨-, hasset', -⟩ := find_ok h.right.plain (h.right.find_child hname hnul hfits)
  have hdir : (d.get? (name :: base.locationOf cache) == some .directory) = false := by
    simpa using h.leftEntry
  have hdir' : (e.get? (name :: base.locationOf cache) == some .directory) = false := by
    simpa using h.rightEntry
  unfold Disk.replace
  rw [hasset, hasset']
  split
  · exact .error _
  · next hvalid =>
    obtain ⟨hnul', -⟩ := Bool.or_eq_false_iff.1 (by simpa using hvalid)
    rw [← locate_of_find hnul' (hp.find false)]
    cases hold : d.locate false p with
    | error f => exact .error _
    | ok old =>
        simp only [hdir, hdir', Bool.false_eq_true, if_false]
        split
        · exact .error _
        · split
          · exact .error _
          · refine .ok ⟨fun k => ?_, h.here.symm⟩
            rw [get?_put _ _ _ _ (by simp), get?_put _ _ _ _ (by simp)]
            split
            · rfl
            · next hk => exact get?_erase_eq (h.other hk) _

end Near

end ReleaseFetch.Disk
