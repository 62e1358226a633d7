/-
**Steps that leave the network alone.**

Steps on files read and change the disk and write to the journal.  They neither read nor change what
was sent and started, nor what will be answered: with other traffic around them they do the same.
From this follows both that they send nothing and that two runs which differ in their traffic only
take the same course through them.

Main definitions:

* `ReleaseFetch.Traffic`, `ReleaseFetch.World.traffic`, `ReleaseFetch.World.withTraffic` — what was
  sent and started, and what is left to be answered;
* `ReleaseFetch.Session.Local` — a step that does the same whatever the traffic is;
* `ReleaseFetch.Session.OfDisk` — a step that is about the disk alone;
* `ReleaseFetch.Session.Quiet` — a step that only writes to the journal.

Main results:

* `ReleaseFetch.Session.Local.traffic` — a local step leaves the traffic as it is;
* `ReleaseFetch.Session.Local.bind` — steps of local steps are local;
* `ReleaseFetch.Session.OfDisk.isLocal` — a step about the disk is local;
* `ReleaseFetch.Files.ensureDirectory_local`, `ReleaseFetch.Files.discard_local`,
  `ReleaseFetch.Files.copyExecutable_local`, `ReleaseFetch.Files.findBinary_local` — the steps on
  files are local.
-/

import ReleaseFetch.Proofs.Disk.Placing

set_option autoImplicit false

namespace ReleaseFetch

/-- What was sent and started, and what is left to be answered. -/
structure Traffic where
  answers : List Answer
  shellReplies : List ShellReply
  exchanges : List Exchange
  commands : List (List String)

namespace World

/-- The traffic of a world. -/
def traffic (w : World) : Traffic := ⟨w.answers, w.shellReplies, w.exchanges, w.commands⟩

/-- The world with other traffic. -/
def withTraffic (w : World) (t : Traffic) : World :=
  { w with
    answers := t.answers, shellReplies := t.shellReplies, exchanges := t.exchanges,
    commands := t.commands }

@[simp] theorem withTraffic_disk (w : World) (t : Traffic) : (w.withTraffic t).disk = w.disk := rfl

@[simp] theorem traffic_withTraffic (w : World) (t : Traffic) : (w.withTraffic t).traffic = t := rfl

theorem withTraffic_traffic (w : World) : w.withTraffic w.traffic = w := rfl

/-- Two worlds with the same disk, journal and output differ in their traffic only. -/
theorem eq_withTraffic {w w' : World} (hdisk : w'.disk = w.disk) (hjournal : w'.journal = w.journal)
    (hprinted : w'.printed = w.printed) : w' = w.withTraffic w'.traffic := by
  cases w'
  cases w
  obtain rfl := hdisk
  obtain rfl := hjournal
  obtain rfl := hprinted
  rfl

end World

namespace Session

/-- The step does the same whatever the traffic is, and leaves it as it is. -/
def Local {α : Type} (x : Session α) : Prop :=
  ∀ w t, x.perform (w.withTraffic t) = ((x.perform w).1, (x.perform w).2.withTraffic t)

namespace Local

variable {α β : Type}

/-- **A local step leaves the traffic as it is.** -/
theorem traffic {x : Session α} (hx : Local x) (w : World) :
    (x.perform w).2.traffic = w.traffic := by
  have h := congrArg (fun p => p.2.traffic) (hx w w.traffic)
  rwa [World.withTraffic_traffic, World.traffic_withTraffic] at h

theorem pure (a : α) : Local (pure a : Session α) := fun _ _ => rfl

theorem throw (f : Failure) : Local (throw f : Session α) := fun _ _ => rfl

theorem fail (p : Problem) : Local (fail p : Session α) := fun _ _ => rfl

theorem give (r : Except Failure α) : Local (give r) := by
  intro w t
  rw [perform_give, perform_give]

theorem look (f : Disk → Except Failure α) : Local (look f) := by
  intro w t
  rw [perform_look, perform_look, World.withTraffic_disk]

theorem log (l : Level) (s : Source) (text : String) : Local (log l s text) := fun _ _ => rfl

theorem change (f : Disk → Except Failure Disk) : Local (change f) := by
  intro w t
  rw [perform_change, perform_change, World.withTraffic_disk]
  cases f w.disk <;> rfl

theorem attempt {x : Session α} (hx : Local x) : Local (attempt x) := by
  intro w t
  rw [perform_attempt, perform_attempt, hx w t]

/-- **Steps of local steps are local.** -/
theorem bind {x : Session α} {k : α → Session β} (hx : Local x) (hk : ∀ a, Local (k a)) :
    Local (x >>= k) := by
  intro w t
  rw [perform_bind, perform_bind, hx w t]
  rcases x.perform w with ⟨r, v⟩
  cases r with
  | ok a => exact hk a v t
  | error f => rfl

/-- A step whose failure is handled by local steps. -/
theorem handle {x : Session α} {k : Except Failure α → Session β} (hx : Local x)
    (hok : ∀ a, Local (k (.ok a))) (herror : ∀ f, Local (k (.error f))) :
    Local (Session.attempt x >>= k) := by
  refine bind (attempt hx) ?_
  intro r
  cases r with
  | ok a => exact hok a
  | error f => exact herror f

end Local

/-! ### Steps about the disk -/

/-- The step is about the disk alone: from worlds with one disk it ends in one way, leaves one disk,
and does nothing else. -/
def OfDisk {α : Type} (x : Session α) : Prop :=
  ∀ w v : World, v.disk = w.disk →
    x.perform v = ((x.perform w).1, { v with disk := (x.perform w).2.disk })

namespace OfDisk

variable {α β : Type}

/-- A step about the disk alone is local. -/
theorem isLocal {x : Session α} (hx : OfDisk x) : x.Local := by
  intro w t
  have hw := hx w w rfl
  have hsame : (x.perform w).2 = { w with disk := (x.perform w).2.disk } := congrArg (·.2) hw
  rw [hx w (w.withTraffic t) rfl]
  exact Prod.ext rfl (congrArg (·.withTraffic t) hsame).symm

/-- How the step ends is known from the disk. -/
theorem result {x : Session α} (hx : OfDisk x) {w v : World} (hv : v.disk = w.disk) :
    (x.perform v).1 = (x.perform w).1 := by
  rw [hx w v hv]

theorem give (r : Except Failure α) : OfDisk (give r) := by
  intro w v hv
  rw [perform_give, perform_give, ← hv]

theorem pure (a : α) : OfDisk (pure a : Session α) := give (.ok a)

theorem throw (f : Failure) : OfDisk (throw f : Session α) := give (.error f)

theorem look (f : Disk → Except Failure α) : OfDisk (look f) := by
  intro w v hv
  rw [perform_look, perform_look, ← hv]

theorem change (f : Disk → Except Failure Disk) : OfDisk (change f) := by
  intro w v hv
  rw [perform_change, perform_change, hv]
  cases f w.disk with
  | ok d => rfl
  | error e => exact Prod.ext rfl (by rw [← hv])

theorem attempt {x : Session α} (hx : OfDisk x) : OfDisk (attempt x) := by
  intro w v hv
  rw [perform_attempt, perform_attempt, hx w v hv]

/-- **One step after another.** -/
theorem bind {x : Session α} {k : α → Session β} (hx : OfDisk x) (hk : ∀ a, OfDisk (k a)) :
    OfDisk (x >>= k) := by
  intro w v hv
  rw [perform_bind, perform_bind, hx w v hv]
  rcases x.perform w with ⟨r, u⟩
  cases r with
  | ok a => exact hk a u _ rfl
  | error f => rfl

end OfDisk

/-! ### Steps that only write to the journal -/

/-- The step ends the same way from everywhere, and all that it does is to write to the journal. -/
def Quiet {α : Type} (x : Session α) : Prop :=
  ∃ r j, ∀ w, x.perform w = (r, { w with journal := w.journal ++ j })

namespace Quiet

variable {α β : Type}

theorem give (r : Except Failure α) : Quiet (give r) := by
  refine ⟨r, [], fun w => ?_⟩
  rw [perform_give, List.append_nil]

theorem pure (a : α) : Quiet (pure a : Session α) := give (.ok a)

theorem throw (f : Failure) : Quiet (throw f : Session α) := give (.error f)

theorem fail (p : Problem) : Quiet (fail p : Session α) := give (.error (.problem p))

theorem log (l : Level) (s : Source) (text : String) : Quiet (log l s text) := ⟨_, _, fun _ => rfl⟩

theorem bind {x : Session α} {k : α → Session β} (hx : Quiet x) (hk : ∀ a, Quiet (k a)) :
    Quiet (x >>= k) := by
  obtain ⟨r, j, h⟩ := hx
  cases r with
  | error f => exact ⟨.error f, j, fun w => by rw [perform_bind, h]⟩
  | ok a =>
      obtain ⟨r', j', h'⟩ := hk a
      refine ⟨r', j ++ j', fun w => ?_⟩
      rw [perform_bind, h]
      simp only
      rw [h', List.append_assoc]

/-- Every motion holds of a step that only writes to the journal. -/
theorem moves {T : Motion} {x : Session α} (hx : Quiet x) : x.Moves T := by
  obtain ⟨r, j, h⟩ := hx
  intro w
  rw [h]
  exact T.journal w _

theorem isLocal {x : Session α} (hx : Quiet x) : x.Local := by
  obtain ⟨r, j, h⟩ := hx
  intro w t
  rw [h, h]
  rfl

end Quiet

end Session

/-! ### Steps on files -/

namespace Files

open Session

theorem passIfThere_ofDisk (p : Path) (f : Failure) : (passIfThere p f).OfDisk := by
  intro w v hv
  rw [perform_passIfThere, perform_passIfThere, hv]
  split
  · split <;> rw [← hv]
  · rw [← hv]

theorem ensureDirectory_ofDisk (p : Path) : (ensureDirectory p).OfDisk := by
  refine ensureWithin_induct (A := fun _ => True) (E := fun _ => True) (fun _ _ => trivial) ?_
    (fun f _ => .throw f) (fun p f _ _ => passIfThere_ofDisk p f)
    (fun _ _ hx hy => .bind hx fun _ => hy) _ trivial
  intro p k _ hk
  refine .bind (.attempt (.change _)) fun r => ?_
  cases r with
  | ok u => exact .pure _
  | error f => exact hk f trivial

theorem ensureDirectory_local (p : Path) : (ensureDirectory p).Local :=
  (ensureDirectory_ofDisk p).isLocal

theorem discard_local (p : Path) : (discard p).Local := by
  unfold discard
  refine .handle (.change _) (fun _ => .pure _) ?_
  intro f
  simp only
  split
  · exact .pure _
  · split
    · exact .bind (.log _ _ _) fun _ => .pure _
    · exact .throw f

theorem copyExecutable_local (source destination : Path) :
    (copyExecutable source destination).Local :=
  .bind (ensureDirectory_local _) fun _ => .change _

theorem makeExecutable_local (p : Path) : (makeExecutable p).Local := .change _

theorem findBinary_local (directory : Path) (name : String) :
    (findBinary directory name).Local := by
  rw [findBinary_eq]
  exact .look _

end Files

end ReleaseFetch
