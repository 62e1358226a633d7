/-
**What stands at a path itself.**

What is removed is the entry that a path leads to over no last link.  A directory there stays, and
anything else goes.  Directories that are made on the way to another path have names of that path,
so that nothing comes to stand under any other name.

Main definitions:

* `ReleaseFetch.Disk.Vacant`, `ReleaseFetch.Disk.HasDirectory` — what stands at a path itself;
* `ReleaseFetch.Disk.KeepsFiles` — what is kept under a name in a directory is a file;
* `ReleaseFetch.Motion.makes` — the motion of entries that come in under given names.

Main results:

* `ReleaseFetch.Disk.find_child` — an entry of a directory stands under its name;
* `ReleaseFetch.Disk.KeepsFiles.noDirectory` — then there is no directory;
* `ReleaseFetch.Files.ensureDirectory_makes` — the names of what is made;
* `ReleaseFetch.Files.ensureDirectory_keepsFiles` — files that are kept are kept;
* `ReleaseFetch.Files.discard_vacant` — nothing is left where there was no directory.
-/

import ReleaseFetch.Proofs.Disk.Turning

set_option autoImplicit false

namespace ReleaseFetch

open Disk Session

namespace Disk

variable {d e : Disk} {p : Path} {f : Failure}

/-- Nothing is at a path, neither a file nor a link: where it can be looked up, nothing stands. -/
def Vacant (d : Disk) (p : Path) : Prop := ∀ q, d.find false p = .ok q → q.entry = none

/-- A directory is at a path itself, over no last link. -/
def HasDirectory (d : Disk) (p : Path) : Prop := ∃ l, d.find false p = .ok ⟨l, some .directory⟩

theorem RoutesIn.hasDirectory (h : d.RoutesIn e) (hp : d.HasDirectory p) : e.HasDirectory p := by
  obtain ⟨l, hl⟩ := hp
  exact ⟨l, h.find hl (.inl rfl)⟩

/-- Nothing is at a path that cannot be looked up. -/
theorem vacant_of_error (h : d.find false p = .error f) : d.Vacant p := by
  intro q hq
  rw [h] at hq
  cases hq

/-- Nothing is in a directory that is not there. -/
theorem vacant_child {name : String} (hname : IsEntryName name)
    (h : d.isDirectory? p ≠ .ok true) : d.Vacant (p.child name) := by
  intro q hq
  rw [p.child_eq hname] at hq
  exact absurd (isDirectory?_iff.2 (find_append (by simp) hq)) h

/-- Where nothing was in a directory that was there, nothing is, unless a directory came in. -/
theorem Vacant.grown {name : String} (hname : IsEntryName name) (hnul : '\x00' ∉ name.toList)
    (h : d.Vacant (p.child name)) (hgrown : d.Grown e) (hdir : d.isDirectory? p = .ok true)
    (hstart : p.names = [] → d.get? (d.start p) = some .directory)
    (hno : ¬e.HasDirectory (p.child name)) : e.Vacant (p.child name) := by
  obtain ⟨m, hm⟩ := isDirectory?_iff.1 hdir
  have hm' := hgrown.routesIn.find_directory hm
  rw [p.child_eq hname] at h hno ⊢
  rcases find_concat hm' hname.isName hnul fun hnil => start_of_grown hgrown (hstart hnil) with
    ⟨hfits, hfind'⟩ | ⟨-, hfind'⟩
  · rcases find_concat hm hname.isName hnul hstart with ⟨-, hfind⟩ | ⟨hfits', -⟩
    · have hnone : d.get? (name :: m) = none := h _ hfind
      intro q hq
      rw [hfind'] at hq
      rw [← Except.ok.inj hq]
      rcases hgrown.kept (name :: m) with hsame | ⟨-, hmade⟩
      · exact hsame.trans hnone
      · exact absurd ⟨_, hmade ▸ hfind'⟩ hno
    · exact absurd hfits hfits'
  · exact vacant_of_error hfind'

/-- Where nothing is, nothing is said to be. -/
theorem Vacant.exists? (h : d.Vacant p) : d.exists? p ≠ .ok true := by
  intro hexists
  obtain ⟨q, hq, hne⟩ := exists?_iff.1 hexists
  rcases d.find_false p with ⟨m, t, hlink⟩ | heq
  · cases h _ hlink
  · exact hne (h q (heq.trans hq))

/-- Where nothing is found, nothing is said to be. -/
theorem exists?_of_absent {l : Location} (h : d.find true p = .ok ⟨l, none⟩) :
    d.exists? p = .ok false := by
  unfold Disk.exists? ask status
  rw [h]
  rfl

/-- Where it cannot be said whether something is there, nothing is, or a link. -/
theorem vacant_of_exists? (h : d.exists? p = .error f)
    (hlink : ∀ m t, d.find false p ≠ .ok ⟨m, some (.link t)⟩) : d.Vacant p := by
  rcases d.find_false p with ⟨m, t, hfind⟩ | heq
  · exact absurd hfind (hlink m t)
  · intro q hq
    refine Decidable.byContradiction fun hne => ?_
    rw [exists?_iff.2 ⟨q, heq.symm.trans hq, hne⟩] at h
    cases h

/-! ### What is kept under a name -/

/-- An entry of a directory that is found stands in it under its name. -/
theorem find_child {name : String} (hname : IsEntryName name) {q : Place}
    (h : d.find false (p.child name) = .ok q) :
    ∃ m, d.find true p = .ok ⟨m, some .directory⟩ ∧ q = ⟨name :: m, d.get? (name :: m)⟩ := by
  rw [p.child_eq hname] at h
  obtain ⟨m, hm⟩ := find_append (by simp) h
  obtain ⟨henters, -⟩ := find_eq_ok_iff.1 h
  have hnul : '\x00' ∉ name.toList := by
    have hboth := henters.noNul
    unfold hasNul at hboth
    rw [List.any_append, Bool.or_eq_false_iff] at hboth
    simpa using hboth.2
  refine ⟨m, hm, ?_⟩
  rcases find_concat hm hname.isName hnul fun _ => henters.start (by simp) with
    ⟨-, hfind⟩ | ⟨-, hfind⟩
  · exact Except.ok.inj (h.symm.trans hfind)
  · cases h.symm.trans hfind

/-- A path that is not too long leads to what stands in its directory under its name. -/
theorem find_child_of_fits {name : String} (hname : IsEntryName name)
    (hnul : '\x00' ∉ name.toList) (hfits : Fits (p.child name)) {m : Location}
    (hm : d.find true p = .ok ⟨m, some .directory⟩)
    (hstart : p.names = [] → d.get? (d.start p) = some .directory) :
    d.find false (p.child name) = .ok ⟨name :: m, d.get? (name :: m)⟩ := by
  rw [p.child_eq hname] at hfits ⊢
  rcases find_concat hm hname.isName hnul hstart with ⟨-, hfind⟩ | ⟨hno, -⟩
  · exact hfind
  · exact absurd hfits hno

/-- Where nothing was in a directory that was there, nothing is, if nothing came in under its
name. -/
theorem Vacant.unnamed {name : String} (hname : IsEntryName name) (hnul : '\x00' ∉ name.toList)
    (hfits : Fits (p.child name)) (h : d.Vacant (p.child name)) (hgrown : d.Grown e)
    (hsame : ∀ l, e.get? (name :: l) = d.get? (name :: l)) (hdir : d.isDirectory? p = .ok true)
    (hstart : p.names = [] → d.get? (d.start p) = some .directory) :
    ∃ l, e.find false (p.child name) = .ok ⟨l, none⟩ := by
  obtain ⟨m, hm⟩ := isDirectory?_iff.1 hdir
  have hnone : d.get? (name :: m) = none := h _ (find_child_of_fits hname hnul hfits hm hstart)
  have hfind := find_child_of_fits hname hnul hfits (hgrown.routesIn.find_directory hm)
    fun hnil => start_of_grown hgrown (hstart hnil)
  rw [hsame, hnone] at hfind
  exact ⟨_, hfind⟩

/-- What is kept under a name in a directory is a file: in the one that the path leads to or, as
long as there is none, in any. -/
def KeepsFiles (d : Disk) (p : Path) (name : String) : Prop :=
  ∀ l x, (∀ m, d.find true p = .ok ⟨m, some .directory⟩ → m = l) →
    d.get? (name :: l) = some x → ∃ bytes mode, x = .file bytes mode

namespace KeepsFiles

variable {name : String}

/-- What is found under the name is a file, if anything is. -/
theorem found (h : d.KeepsFiles p name) (hname : IsEntryName name) {q : Place} {x : Entry}
    (hq : d.find false (p.child name) = .ok q) (hx : q.entry = some x) :
    ∃ bytes mode, x = .file bytes mode := by
  obtain ⟨m, hm, rfl⟩ := find_child hname hq
  refine h m x (fun m' hm' => ?_) hx
  obtain ⟨rfl, -⟩ := Place.mk.inj (Except.ok.inj (hm'.symm.trans hm))
  rfl

theorem noDirectory (h : d.KeepsFiles p name) (hname : IsEntryName name) :
    ¬d.HasDirectory (p.child name) := by
  rintro ⟨l, hl⟩
  obtain ⟨bytes, mode, hfile⟩ := h.found hname hl rfl
  cases hfile

theorem noLink (h : d.KeepsFiles p name) (hname : IsEntryName name) {m : Location} {t : String} :
    d.find false (p.child name) ≠ .ok ⟨m, some (.link t)⟩ := by
  intro hlink
  obtain ⟨bytes, mode, hfile⟩ := h.found hname hlink rfl
  cases hfile

/-- Files are kept as long as nothing comes in under the name. -/
theorem grown (h : d.KeepsFiles p name) (hgrown : d.Grown e)
    (hsame : ∀ l, e.get? (name :: l) = d.get? (name :: l)) : e.KeepsFiles p name := by
  intro l x hl hx
  refine h l x (fun m hm => hl m ?_) ((hsame l).symm.trans hx)
  exact hgrown.routesIn.find_directory hm

end KeepsFiles

/-! ### The name of what is made -/

/-- A directory is made under the last name of its path. -/
theorem makeDirectory_named (h : d.makeDirectory p = .ok e) :
    ∃ m, p.name ∈ p.names ∧ e = d.put (p.name :: m) .directory := by
  obtain ⟨l, hfind, -, rfl⟩ := makeDirectory_grown h
  obtain ⟨hne, hname⟩ := isName_of_find hfind nofun
  obtain ⟨m, hm⟩ := find_name hname hne hfind
  exact ⟨m, p.name_mem hne, by rw [← hm]⟩

end Disk

/-- Entries come in under some names only. -/
def Motion.makes (N : String → Prop) : Motion where
  rel w w' := ∀ l, w'.disk.get? l = w.disk.get? l ∨ ∃ n m, N n ∧ l = n :: m
  refl _ _ := .inl rfl
  trans h h' l := (h' l).elim (fun heq => heq ▸ h l) .inr
  journal _ _ _ := .inl rfl

namespace Files

variable {p : Path} {w : World}

theorem makeDirectory_makes (p : Path) :
    (change (·.makeDirectory p)).Moves (Motion.makes (· ∈ p.names)) := by
  intro w l
  rw [perform_change]
  split
  · next e he =>
    obtain ⟨m, hn, rfl⟩ := makeDirectory_named he
    by_cases hl : l = p.name :: m
    · exact .inr ⟨p.name, m, hn, hl⟩
    · exact .inl (by rw [get?_put _ _ _ _ (List.cons_ne_nil _ _), if_neg hl])
  · exact .inl rfl

/-- **What is made has a name of the path that is made.** -/
theorem ensureDirectory_makes (p : Path) :
    (ensureDirectory p).Moves (Motion.makes (· ∈ p.names)) := by
  refine ensureWithin_moves (A := fun q => q.names ⊆ p.names) ?_ ?_ _ (List.Subset.refl _)
  · exact fun q hq n hn => hq (List.dropLast_subset _ hn)
  · intro q hq w l
    exact (makeDirectory_makes q w l).imp_right fun ⟨n, m, hn, hl⟩ => ⟨n, m, hq hn, hl⟩

/-- Under a name that is not in the path, nothing is made. -/
theorem get?_ensureDirectory {name : String} (hname : name ∉ p.names) (l : Location) :
    ((ensureDirectory p).perform w).2.disk.get? (name :: l) = w.disk.get? (name :: l) := by
  rcases ensureDirectory_makes p w (name :: l) with hsame | ⟨n, m, hn, heq⟩
  · exact hsame
  · obtain ⟨rfl, -⟩ := List.cons.inj heq
    exact absurd hn hname

/-- **Files that are kept are kept**, whatever directories are made beside them. -/
theorem ensureDirectory_keepsFiles {directory : Path} {name : String}
    (h : w.disk.KeepsFiles directory name) (hname : name ∉ p.names) :
    ((ensureDirectory p).perform w).2.disk.KeepsFiles directory name :=
  h.grown (ensureDirectory_grows p w) (get?_ensureDirectory hname)

/-! ### Removal -/

/-- **Nothing is left where there was no directory.** -/
theorem discard_vacant (h : ¬w.disk.HasDirectory p) : ((discard p).perform w).2.disk.Vacant p := by
  rcases discard_disk p w with hunlink | ⟨⟨f, hunlink⟩, hsame⟩
  · obtain ⟨q, hq, hne, hdir, hturned⟩ := unlink_turned hunlink
    intro q' hq'
    rcases hturned.find false p with hfind | hfind | hfind
    · -- nothing stands there any more
      rw [hfind, hq] at hq'
      obtain rfl := Except.ok.inj hq'
      exact (find_entry (hfind.trans hq) hdir).symm.trans hturned.shows
    · rw [hfind] at hq'
      rw [← Except.ok.inj hq']
    · rw [hfind] at hq'
      cases hq'
  · rw [hsame]
    intro q hq
    unfold unlink at hunlink
    rw [hq] at hunlink
    simp only at hunlink
    split at hunlink
    · next hnone => exact hnone
    · next hdir => exact absurd ⟨q.location, hdir ▸ hq⟩ h
    · cases hunlink

end Files

end ReleaseFetch
