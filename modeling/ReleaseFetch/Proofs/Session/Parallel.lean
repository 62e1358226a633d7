/-
**One step on two disks.**

A step is performed twice, in worlds that differ in their disks only.  It matches itself from one
relation between disks to another, which may depend on how it ends, if both times it ends in the
same way, does the same to the rest of the world, and leaves disks that are related.  This module
has the rules by which that is shown of a step from its parts, and the steps on files: they match
themselves wherever two disks follow each other along a path.

Main definitions:

* `ReleaseFetch.World.onDisk` — a world with another disk;
* `ReleaseFetch.Session.Matches` — a step that does the same on related disks;
* `ReleaseFetch.Session.Keeps` — one that leaves them related as they were;
* `ReleaseFetch.Session.Blind` — one that does the same on all disks.

Main results:

* `ReleaseFetch.Session.Matches.bind`, `ReleaseFetch.Session.Matches.handle` — one step after
  another;
* `ReleaseFetch.Session.Matches.change`, `ReleaseFetch.Session.Matches.look` — steps on the disk;
* `ReleaseFetch.Files.ensureDirectory_keeps`, `ReleaseFetch.Files.discard_keeps` — steps on files.
-/

import ReleaseFetch.Proofs.Disk.Apart
import ReleaseFetch.Proofs.Session.Local

set_option autoImplicit false

namespace ReleaseFetch

open Disk

/-- The world with another disk. -/
def World.onDisk (w : World) (d : Disk) : World := { w with disk := d }

@[simp] theorem World.onDisk_disk (w : World) (d : Disk) : (w.onDisk d).disk = d := rfl

namespace Session

variable {α β : Type} {P R S : Disk → Disk → Prop}

/-! ### Steps that do not see the disk -/

/-- The step does the same whatever the disk is, and leaves it as it is. -/
def Blind (x : Session α) : Prop :=
  ∀ w d, x.perform (w.onDisk d) = ((x.perform w).1, (x.perform w).2.onDisk d)

theorem Blind.disk {x : Session α} (hx : Blind x) (w : World) :
    (x.perform w).2.disk = w.disk := congrArg (fun r => r.2.disk) (hx w w.disk)

theorem Quiet.blind {x : Session α} (hx : Quiet x) : Blind x := by
  obtain ⟨r, j, h⟩ := hx
  intro w d
  rw [h, h]
  rfl

theorem blind_send (q : Request) : Blind (send q) := by
  intro w d
  rw [perform_send, perform_send]
  rcases w with ⟨_, _ | ⟨_ | _, _⟩, _⟩ <;> rfl

theorem blind_close (r : Response) : Blind (close r) := fun _ _ => rfl

theorem blind_startReading (r : Response) (size : Nat) : Blind (startReading r size) :=
  fun _ _ => rfl

/-! ### Steps that match themselves -/

/-- From disks that `P` relates, the step ends in the same way, does the same to the rest of the
world, and leaves disks that `Q` relates for that end. -/
def Matches (P : Disk → Disk → Prop) (x : Session α)
    (Q : Except Failure α → Disk → Disk → Prop) : Prop :=
  ∀ w e, P w.disk e → ∃ e', x.perform (w.onDisk e) = ((x.perform w).1, (x.perform w).2.onDisk e') ∧
    Q (x.perform w).1 (x.perform w).2.disk e'

/-- The step leaves disks related as they were. -/
def Keeps (R : Disk → Disk → Prop) (x : Session α) : Prop := Matches R x fun _ => R

/-- One relation after a success, another after a failure. -/
def Ends (R S : Disk → Disk → Prop) : Except Failure α → Disk → Disk → Prop
  | .ok _ => R
  | .error _ => S

theorem Blind.matches {x : Session α} {Q : Except Failure α → Disk → Disk → Prop} (hx : Blind x)
    (hQ : ∀ r d e, P d e → Q r d e) : Matches P x Q := by
  intro w e h
  refine ⟨e, hx w e, hQ _ _ _ ?_⟩
  rw [hx.disk w]
  exact h

theorem Quiet.matches {x : Session α} {Q : Except Failure α → Disk → Disk → Prop} (hx : Quiet x)
    (hQ : ∀ r d e, P d e → Q r d e) : Matches P x Q := hx.blind.matches hQ

theorem Quiet.keeps {x : Session α} (hx : Quiet x) : Keeps R x := hx.matches fun _ _ _ h => h

namespace Matches

variable {Q Q' : Except Failure α → Disk → Disk → Prop}
  {T : Except Failure β → Disk → Disk → Prop}

theorem pure (a : α) (hQ : ∀ d e, P d e → Q (.ok a) d e) : Matches P (pure a : Session α) Q :=
  fun _ e h => ⟨e, rfl, hQ _ _ h⟩

theorem throw (f : Failure) (hQ : ∀ d e, P d e → Q (.error f) d e) :
    Matches P (throw f : Session α) Q := fun _ e h => ⟨e, rfl, hQ _ _ h⟩

theorem fail (p : Problem) (hQ : ∀ d e, P d e → Q (.error (.problem p)) d e) :
    Matches P (fail p : Session α) Q := fun _ e h => ⟨e, rfl, hQ _ _ h⟩

/-- A note in the journal never fails. -/
theorem log (l : Level) (s : Source) (text : String) :
    Matches P (log l s text) (Ends P fun _ _ => False) := fun _ e h => ⟨e, rfl, h⟩

theorem mono {x : Session α} (hx : Matches P x Q) (hQ : ∀ r d e, Q r d e → Q' r d e) :
    Matches P x Q' := by
  intro w e h
  obtain ⟨e', hperform, h'⟩ := hx w e h
  exact ⟨e', hperform, hQ _ _ _ h'⟩

/-- A step that matches itself from two relations does so from either. -/
theorem or {P' : Disk → Disk → Prop} {x : Session α} (hx : Matches P x Q)
    (hx' : Matches P' x Q) : Matches (fun d e => P d e ∨ P' d e) x Q :=
  fun w e h => h.elim (hx w e) (hx' w e)

/-- **One step after another.** -/
theorem bind {x : Session α} {k : α → Session β} (hx : Matches P x Q)
    (hk : ∀ a, Matches (Q (.ok a)) (k a) T)
    (hfail : ∀ f d e, Q (.error f) d e → T (.error f) d e) : Matches P (x >>= k) T := by
  intro w e h
  obtain ⟨e', hperform, hQ⟩ := hx w e h
  rw [perform_bind, perform_bind, hperform]
  rcases hxw : x.perform w with ⟨r, v⟩
  rw [hxw] at hQ
  cases r with
  | error f => exact ⟨e', rfl, hfail f _ _ hQ⟩
  | ok a => exact hk a v e' hQ

/-- **A step whose end is looked at.** -/
theorem handle {x : Session α} {k : Except Failure α → Session β} (hx : Matches P x Q)
    (hk : ∀ r, Matches (Q r) (k r) T) : Matches P (attempt x >>= k) T := by
  intro w e h
  obtain ⟨e', hperform, hQ⟩ := hx w e h
  rw [perform_bind, perform_bind, perform_attempt, perform_attempt, hperform]
  exact hk (x.perform w).1 (x.perform w).2 e' hQ

/-- A look that shows the same on related disks. -/
theorem look {f : Disk → Except Failure α} (hf : ∀ d e, P d e → f d = f e)
    (hQ : ∀ r d e, f d = r → P d e → Q r d e) : Matches P (look f) Q := by
  intro w e h
  refine ⟨e, ?_, ?_⟩
  · rw [perform_look, perform_look, World.onDisk_disk, hf _ _ h]
  · rw [perform_look]
    exact hQ _ _ _ rfl h

/-- A change that is the same on related disks; one that fails changes nothing. -/
theorem change {f : Disk → Except Failure Disk} (hf : ∀ d e, P d e → Same R (f d) (f e)) :
    Matches P (change f) (Ends R P) := by
  intro w e h
  rw [perform_change, perform_change, World.onDisk_disk]
  have hsame := hf _ _ h
  generalize f w.disk = left at hsame
  generalize f e = right at hsame
  cases hsame with
  | error g => exact ⟨e, rfl, h⟩
  | ok hrelated => exact ⟨_, rfl, hrelated⟩

end Matches

namespace Keeps

theorem bind {x : Session α} {k : α → Session β} (hx : Keeps R x) (hk : ∀ a, Keeps R (k a)) :
    Keeps R (x >>= k) := Matches.bind hx hk fun _ _ _ h => h

theorem handle {x : Session α} {k : Except Failure α → Session β} (hx : Keeps R x)
    (hk : ∀ r, Keeps R (k r)) : Keeps R (attempt x >>= k) := Matches.handle hx hk

theorem look {f : Disk → Except Failure α} (hf : ∀ d e, R d e → f d = f e) :
    Keeps R (look f) := Matches.look hf fun _ _ _ _ h => h

theorem change {f : Disk → Except Failure Disk} (hf : ∀ d e, R d e → Same R (f d) (f e)) :
    Keeps R (change f) := by
  refine (Matches.change hf).mono fun r d e h => ?_
  cases r with
  | ok _ => exact h
  | error _ => exact h

end Keeps

end Session

/-! ### Steps on files -/

namespace Files

open Session

variable {R : Disk → Disk → Prop} {p : Path}

theorem passIfThere_keeps (h : ∀ d e, R d e → Follows R p d e) (f : Failure) :
    Keeps R (passIfThere p f) := by
  intro w e hR
  rw [perform_passIfThere, perform_passIfThere, World.onDisk_disk, (h _ _ hR).isDirectory?]
  split
  · split <;> exact ⟨e, rfl, hR⟩
  · exact ⟨e, rfl, hR⟩

/-- **A directory is made on both disks in the same way**, where they follow each other along its
path and those above it. -/
theorem ensureDirectory_keeps {A : Path → Prop} (hparent : ∀ p, A p → A p.parent)
    (h : ∀ p, A p → ∀ d e, R d e → Follows R p d e) (hp : A p) : Keeps R (ensureDirectory p) := by
  refine ensureWithin_induct (E := fun _ => True) hparent ?_ (fun f _ => (Quiet.throw f).keeps)
    (fun p f hp _ => passIfThere_keeps (h p hp) f) (fun _ _ hx hy => .bind hx fun _ => hy) _ hp
  intro p k hp hk
  refine .handle (.change fun d e hR => (h p hp d e hR).makeDirectory) fun r => ?_
  cases r with
  | ok u => exact (Quiet.pure u).keeps
  | error f => exact hk f trivial

/-- Where the directory is there on both disks, nothing is done. -/
theorem ensureDirectory_there_matches {S : Disk → Disk → Prop}
    (h : ∀ d e, R d e → d.isDirectory? p = .ok true ∧ e.isDirectory? p = .ok true) :
    Matches R (ensureDirectory p) (Ends R S) := by
  intro w e hR
  obtain ⟨hd, he⟩ := h _ _ hR
  rw [ensureDirectory_there hd, ensureDirectory_there (w := w.onDisk e) he]
  exact ⟨e, rfl, hR⟩

/-- **A file is discarded on both disks in the same way.** -/
theorem discard_keeps (h : ∀ d e, R d e → Follows R p d e) : Keeps R (discard p) := by
  unfold discard
  refine .handle (.change fun d e hR => (h d e hR).unlink) fun r => ?_
  cases r with
  | ok _ => exact (Quiet.pure _).keeps
  | error f =>
      simp only
      split
      · exact (Quiet.pure _).keeps
      · split
        · exact .bind (Quiet.log _ _ _).keeps fun _ => (Quiet.pure _).keeps
        · exact (Quiet.throw f).keeps

/-! ### On disks that look the same -/

theorem ensureDirectory_agrees (p : Path) : Keeps Agrees (ensureDirectory p) :=
  ensureDirectory_keeps (A := fun _ => True) (fun _ _ => trivial)
    (fun p _ _ _ hR => hR.follows p) trivial

theorem discard_agrees (p : Path) : Keeps Agrees (discard p) :=
  discard_keeps fun _ _ hR => hR.follows p

theorem copyExecutable_agrees (source destination : Path) :
    Keeps Agrees (copyExecutable source destination) :=
  .bind (ensureDirectory_agrees _) fun _ => .change fun _ _ hR => hR.copyFile source destination

theorem makeExecutable_agrees (p : Path) : Keeps Agrees (makeExecutable p) :=
  .change fun _ _ hR => (hR.follows p).setMode executableMode

theorem findBinary_agrees (directory : Path) (name : String) :
    Keeps Agrees (findBinary directory name) := by
  rw [findBinary_eq]
  exact .look fun _ _ hR => hR.executable? directory name

/-- **An entry that is discarded is gone from both disks**, which are the same from then on. -/
theorem discard_near {base : Disk} {cache : Path} {name : String} (hname : IsEntryName name)
    (hnul : '\x00' ∉ name.toList) (hfits : Fits (cache.child name)) {α : Type} {k : Session α}
    {Q : Except Failure α → Disk → Disk → Prop} (hk : Matches Agrees k Q) :
    Matches (Near base cache name) (discard (cache.child name) >>= fun _ => k) Q := by
  have hnames : (cache.child name).names ≠ [] := by
    rw [Path.child_eq cache hname]
    simp
  -- on each of the disks, what is left is the disk without the entry
  have hgone {w : World} (h : Stocked base cache w.disk)
      (hentry : w.disk.get? (name :: base.locationOf cache) ≠ some .directory) :
      ∃ b v, (discard (cache.child name)).perform w = (.ok b, w.onDisk v) ∧
        v.Agrees (w.disk.erase (name :: base.locationOf cache)) := by
    have hfind := h.find_child hname hnul hfits
    have hloc : w.disk.locationOf (cache.child name) = name :: base.locationOf cache := by
      rw [locationOf_child _ _ hname, h.locationOf]
    rcases h.plain.entry_cases (name :: base.locationOf cache) with hx | hx | ⟨b, m, hx⟩
    · refine ⟨false, w.disk, discard_none h.plain hfind hnames (hloc ▸ hx), fun l => ?_, rfl⟩
      rw [get?_erase _ _ _ (by simp)]
      split
      · next hl => rw [hl, hx]
      · rfl
    · exact absurd hx hentry
    · refine ⟨true, w.disk.erase (name :: base.locationOf cache), ?_, .refl _⟩
      rw [discard_file h.plain hfind hnames (hloc ▸ hx), hloc]
      rfl
  intro w e h
  obtain ⟨b, v, hw, hv⟩ := hgone h.left h.leftEntry
  obtain ⟨b', v', he, hv'⟩ := hgone (w := w.onDisk e) h.right h.rightEntry
  have hsame : v.Agrees v' := (hv.trans h.agrees_erase).trans hv'.symm
  rw [perform_bind, perform_bind, hw, he]
  exact hk (w.onDisk v) v' hsame

end Files

end ReleaseFetch
