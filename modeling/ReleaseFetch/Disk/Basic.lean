/-
**The disk.**

A disk is a finite map from locations to entries, together with the directory the process works
in.  A location lists names from the entry up to the root, so the directory of an entry is the
tail of its location; the root itself is always a directory.

Main definitions:

* `ReleaseFetch.Location`, `ReleaseFetch.Entry`, `ReleaseFetch.Disk`;
* `ReleaseFetch.Disk.get?` — the view that every statement about a disk uses;
* `ReleaseFetch.Disk.put`, `ReleaseFetch.Disk.erase`, `ReleaseFetch.Disk.eraseTree` — the three
  changes.

Main results:

* `ReleaseFetch.Disk.get?_put`, `ReleaseFetch.Disk.get?_erase`,
  `ReleaseFetch.Disk.get?_eraseTree` — what each change does to the view.
-/

import ReleaseFetch.Failure

set_option autoImplicit false

namespace ReleaseFetch

/-- A place on the disk: the names from the entry up to the root. -/
abbrev Location := List String

/-- What can stand at a location. -/
inductive Entry where
  | directory
  | file (bytes : List UInt8) (mode : Nat)
  | link (target : String)
  deriving DecidableEq

/-- The owner may execute the entry; a directory may always be entered. -/
def Entry.isExecutable : Entry → Bool
  | .file _ mode => mode / 0o100 % 2 = 1
  | _ => true

/-- The entries below the root, and the directory that relative paths start from. -/
structure Disk where
  entries : List (Location × Entry)
  here : Location

namespace Disk

/-! ### The view -/

/-- What stands at a location. -/
def get? (d : Disk) (l : Location) : Option Entry :=
  if l = [] then some .directory else d.entries.lookup l

@[simp] theorem get?_root (d : Disk) : d.get? [] = some .directory := rfl

/-- Two disks look the same everywhere. -/
def SameView (d e : Disk) : Prop := ∀ l, d.get? l = e.get? l

/-! ### The changes -/

/-- Puts an entry at a location, in place of what stood there. -/
def put (d : Disk) (l : Location) (e : Entry) : Disk :=
  { d with entries := (l, e) :: d.entries.filter fun x => x.1 != l }

/-- Removes the entry at a location. -/
def erase (d : Disk) (l : Location) : Disk :=
  { d with entries := d.entries.filter fun x => x.1 != l }

/-- Removes a location and everything below it. -/
def eraseTree (d : Disk) (l : Location) : Disk :=
  { d with entries := d.entries.filter fun x => !l.isSuffixOf x.1 }

@[simp] theorem put_here (d : Disk) (l : Location) (e : Entry) : (d.put l e).here = d.here := rfl

@[simp] theorem erase_here (d : Disk) (l : Location) : (d.erase l).here = d.here := rfl

@[simp] theorem eraseTree_here (d : Disk) (l : Location) : (d.eraseTree l).here = d.here := rfl

/-- Dropping entries by their location leaves the others to be found. -/
theorem lookup_filter_of_keep (keep : Location → Bool) {entries : List (Location × Entry)}
    {m : Location} (h : keep m = true) :
    (entries.filter fun x => keep x.1).lookup m = entries.lookup m := by
  induction entries with
  | nil => rfl
  | cons x xs ih =>
    obtain ⟨k, e⟩ := x
    by_cases hk : m = k
    · subst hk; simp [h]
    · have hb : (m == k) = false := by simpa using hk
      by_cases hx : keep k = true <;> simp [hx, List.lookup_cons, hb, ih]

/-- Dropped entries are not found. -/
theorem lookup_filter_of_drop (keep : Location → Bool) {entries : List (Location × Entry)}
    {m : Location} (h : keep m = false) :
    (entries.filter fun x => keep x.1).lookup m = none := by
  induction entries with
  | nil => rfl
  | cons x xs ih =>
    obtain ⟨k, e⟩ := x
    by_cases hk : m = k
    · subst hk; rw [List.filter_cons_of_neg (by simp [h]), ih]
    · have hb : (m == k) = false := by simpa using hk
      by_cases hx : keep k = true
      · rw [List.filter_cons_of_pos (by simpa using hx), List.lookup_cons, hb, ih]
      · rw [List.filter_cons_of_neg (by simpa using hx), ih]

theorem get?_put (d : Disk) (l m : Location) (e : Entry) (hl : l ≠ []) :
    (d.put l e).get? m = if m = l then some e else d.get? m := by
  unfold get? put
  by_cases hm : m = []
  · simp [hm, Ne.symm hl]
  · by_cases h : m = l
    · simp [h, hl]
    · have hk : (m != l) = true := by simpa using h
      have hb : (m == l) = false := by simpa using h
      simp [hm, h, List.lookup_cons, hb, lookup_filter_of_keep (· != l) hk]

theorem get?_erase (d : Disk) (l m : Location) (hl : l ≠ []) :
    (d.erase l).get? m = if m = l then none else d.get? m := by
  unfold get? erase
  by_cases hm : m = []
  · simp [hm, Ne.symm hl]
  · by_cases h : m = l
    · have hk : (l != l) = false := by simp
      simp [h, hl, lookup_filter_of_drop (· != l) hk]
    · have hk : (m != l) = true := by simpa using h
      simp [hm, h, lookup_filter_of_keep (· != l) hk]

theorem get?_eraseTree (d : Disk) (l m : Location) (hm : m ≠ []) :
    (d.eraseTree l).get? m = if l.isSuffixOf m then none else d.get? m := by
  unfold get? eraseTree
  by_cases h : l.isSuffixOf m
  · simp [hm, h, lookup_filter_of_drop (fun k => !l.isSuffixOf k) (m := m) (by simp [h])]
  · simp [hm, h, lookup_filter_of_keep (fun k => !l.isSuffixOf k) (m := m) (by simp [h])]

/-! ### Text of a location -/

/-- The path of a location, from the root. -/
def pathOf (l : Location) : Path := ⟨.single, l.reverse⟩

/-- The path of the working directory. -/
def herePath (d : Disk) : Path := pathOf d.here

end Disk

end ReleaseFetch
