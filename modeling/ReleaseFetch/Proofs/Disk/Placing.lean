/-
**The steps on files, on a disk without links.**

Each step on files changes a plain disk at the paths that it is about and nowhere else, apart from
directories that it makes on the way.  The statements hold of every outcome, so they also cover the
steps that fail half way.

Main definitions:

* `ReleaseFetch.Motion.edits` — the motion of changes to files at some paths only;
* `ReleaseFetch.Disk.executable?` — the executable that is found in a directory;
* `ReleaseFetch.Files.tryDirectory`, `ReleaseFetch.Files.passUnlessMissing` — the parts of making a
  directory with those above it.

Main results:

* `ReleaseFetch.Files.ensureWithin_induct` — what holds of every part of making directories holds of
  the whole;
* `ReleaseFetch.Files.ensureDirectory_edited`, `ReleaseFetch.Files.stands_of_ensureDirectory` —
  making a directory changes no file, and the directory is there afterwards;
* `ReleaseFetch.Files.discard_edits`, `ReleaseFetch.Files.discard_file` — a file that can be found
  is gone after it is discarded;
* `ReleaseFetch.Files.copyExecutable_edits`, `ReleaseFetch.Files.makeExecutable_edits`.
-/

import ReleaseFetch.Files
import ReleaseFetch.Proofs.Disk.Edits
import ReleaseFetch.Proofs.Session.Perform

set_option autoImplicit false

namespace ReleaseFetch

open Disk

/-- Changes to a plain disk at the locations of some paths only. -/
def Motion.edits (P : Path → Prop) : Motion where
  rel w w' :=
    w.disk.Plain → Edited (fun l => ∃ p, P p ∧ l = w.disk.locationOf p) w.disk w'.disk
  refl _ := Edited.refl
  trans := by
    intro u v w h h' hu
    have hv := h hu
    refine hv.trans ((h' hv.plain).mono ?_)
    rintro l ⟨p, hp, rfl⟩
    exact ⟨p, hp, hv.locationOf p⟩
  journal _ _ := Edited.refl

namespace Session

/-- A change of the disk is followed through the changes that succeed. -/
theorem moves_change {P : Path → Prop} {f : Disk → Except Failure Disk}
    (hf : ∀ d e, d.Plain → f d = .ok e → Edited (fun l => ∃ p, P p ∧ l = d.locationOf p) d e) :
    (change f).Moves (Motion.edits P) := by
  intro w hw
  rw [perform_change]
  split
  · next d hd => exact hf _ _ hw hd
  · exact Edited.refl hw

end Session

/-- The executable of a directory: the bare name first, then the name with its suffix. -/
def Disk.executable? (d : Disk) (directory : Path) (name : String) :
    Except Failure (Option Path) := do
  if ← d.exists? (directory.child name) then return some (directory.child name)
  if ← d.exists? (directory.child (name ++ ".exe")) then
    return some (directory.child (name ++ ".exe"))
  return none

/-- The bare name comes first. -/
theorem Disk.executable?_of_exists {d : Disk} {directory : Path} {name : String}
    (h : d.exists? (directory.child name) = .ok true) :
    d.executable? directory name = .ok (some (directory.child name)) := by
  unfold executable?
  rw [h]
  rfl

namespace Files

open Session

variable {P : Path → Prop}

/-! ### Directories -/

theorem makeDirectory_edits (p : Path) :
    (change (·.makeDirectory p)).Moves (Motion.edits P) := by
  refine moves_change ?_
  intro d e hd h
  obtain ⟨hopen, hnone, rfl, -⟩ := makeDirectory_ok hd h
  exact Edited.put hd hopen (by simp) (.inr ⟨hnone, rfl⟩)

/-- A try to make a directory, whose failure is looked at. -/
def tryDirectory (p : Path) (k : Failure → Session Unit) : Session Unit := do
  match ← attempt (change (·.makeDirectory p)) with
  | .ok () => pure ()
  | .error f => k f

/-- The end of the last try: something is missing, or the failure passes. -/
def passUnlessMissing (p : Path) (f : Failure) : Session Unit :=
  if isNoEntry f then throw f else passIfThere p f

theorem ensureWithin_zero (p : Path) :
    ensureWithin 0 p = tryDirectory p (passUnlessMissing p) := by
  rw [ensureWithin]
  rfl

/-- Where something is missing, a directory is tried again after the one above it. -/
theorem ensureWithin_succ (depth : Nat) (p : Path) :
    ensureWithin (depth + 1) p = tryDirectory p fun f =>
      if isNoEntry f then ensureWithin depth p.parent >>= fun _ => tryDirectory p (passUnlessMissing p)
      else passIfThere p f := by
  rw [ensureWithin]
  rfl

/-- What holds of every part of making a directory with those above it holds of the whole: of tries
to make a directory, of failures that end it or pass, and of one step after another. -/
theorem ensureWithin_induct {C : Session Unit → Prop} {A : Path → Prop} {E : Failure → Prop}
    (hparent : ∀ p, A p → A p.parent)
    (htry : ∀ p k, A p → (∀ f, E f → C (k f)) → C (tryDirectory p k))
    (hthrow : ∀ f, E f → C (throw f)) (hpass : ∀ p f, A p → E f → C (passIfThere p f))
    (hbind : ∀ x y, C x → C y → C (x >>= fun _ => y)) (depth : Nat) {p : Path} (hp : A p) :
    C (ensureWithin depth p) := by
  have hlast {p : Path} (hp : A p) : C (tryDirectory p (passUnlessMissing p)) := by
    refine htry p _ hp fun f hf => ?_
    unfold passUnlessMissing
    split
    · exact hthrow f hf
    · exact hpass p f hp hf
  -- induction on the depth, for the path and the parents that are made first
  induction depth generalizing p with
  | zero =>
      rw [ensureWithin_zero]
      exact hlast hp
  | succ depth ih =>
      rw [ensureWithin_succ]
      refine htry p _ hp fun f hf => ?_
      split
      · exact hbind _ _ (ih (hparent p hp)) (hlast hp)
      · exact hpass p f hp hf

/-- A failure passes where the directory is there; the world stays as it is. -/
theorem perform_passIfThere (p : Path) (f : Failure) (w : World) :
    (passIfThere p f).perform w =
      if f.isSystem then
        match w.disk.isDirectory? p with
        | .ok true => (.ok (), w)
        | .ok false => (.error f, w)
        | .error g => (.error g, w)
      else (.error f, w) := by
  unfold passIfThere
  cases hf : f.isSystem with
  | false => rfl
  | true =>
      simp only [Bool.not_true, Bool.false_eq_true, if_false, if_true, perform_bind, perform_look]
      rcases w.disk.isDirectory? p with g | _ | _ <;> rfl

/-- Whatever becomes of a failure to make a directory, the world stays as it is. -/
theorem passIfThere_moves {T : Motion} (p : Path) (f : Failure) : (passIfThere p f).Moves T := by
  intro w
  have hsame : ((passIfThere p f).perform w).2 = w := by
    rw [perform_passIfThere]
    split
    · split <;> rfl
    · rfl
  rw [hsame]
  exact T.refl w

/-- A motion holds of making a directory with those above it, if it holds of making each. -/
theorem ensureWithin_moves {T : Motion} {A : Path → Prop} (hparent : ∀ p, A p → A p.parent)
    (hmake : ∀ p, A p → (change (·.makeDirectory p)).Moves T) (depth : Nat) {p : Path} (hp : A p) :
    (ensureWithin depth p).Moves T := by
  refine ensureWithin_induct (E := fun _ => True) hparent ?_ (fun f _ => .throw f)
    (fun p f _ _ => passIfThere_moves p f) (fun _ _ hx hy => .bind hx fun _ => hy) depth hp
  intro p k hp hk
  refine .bind (.attempt (hmake p hp)) fun r => ?_
  cases r with
  | ok u => exact .pure _
  | error f => exact hk f trivial

theorem ensureWithin_edits (depth : Nat) (p : Path) :
    (ensureWithin depth p).Moves (Motion.edits P) :=
  ensureWithin_moves (A := fun _ => True) (fun _ _ => trivial) (fun p _ => makeDirectory_edits p)
    depth trivial

theorem ensureDirectory_edits (p : Path) : (ensureDirectory p).Moves (Motion.edits P) :=
  ensureWithin_edits _ p

/-- **Making a directory changes no file.** -/
theorem ensureDirectory_edited (p : Path) {w : World} (hw : w.disk.Plain) :
    Edited (fun _ => False) w.disk ((ensureDirectory p).perform w).2.disk := by
  have hedits := ensureDirectory_edits (P := fun _ => False) p w hw
  refine hedits.mono ?_
  rintro l ⟨q, hq, -⟩
  exact hq

/-- A path that is said to be a directory leads to one. -/
theorem stands_of_isDirectory? {d : Disk} (hd : d.Plain) {p : Path}
    (h : d.isDirectory? p = .ok true) : d.Stands p := by
  unfold isDirectory? ask at h
  split at h
  · next place hstatus =>
    obtain ⟨hfind, rfl, -⟩ := status_ok hd hstatus
    exact ⟨by simpa using h, _, hfind⟩
  · split at h <;> simp at h

theorem stands_of_passIfThere {p : Path} {f : Failure} {w w' : World} (hw : w.disk.Plain)
    (h : (passIfThere p f).perform w = (.ok (), w')) : w'.disk.Stands p := by
  rw [perform_passIfThere] at h
  split at h
  · split at h
    · next hdir =>
      obtain rfl := (Prod.mk.inj h).2
      exact stands_of_isDirectory? hw hdir
    · cases h
    · cases h
  · cases h

theorem stands_of_makeDirectory {p : Path} {w w' : World} (hw : w.disk.Plain)
    (h : (change (·.makeDirectory p)).perform w = (.ok (), w')) : w'.disk.Stands p := by
  obtain ⟨d, hd, rfl⟩ := change_ok h
  obtain ⟨hopen, hnone, rfl, place, hfind⟩ := makeDirectory_ok hw hd
  have hedit : Edited (fun _ => False) w.disk (w.disk.put (w.disk.locationOf p) .directory) :=
    Edited.put hw hopen (by simp) (.inr ⟨hnone, rfl⟩)
  refine ⟨?_, _, hedit.toWithin.find hw hedit.plain hfind⟩
  unfold seen
  split
  · rfl
  · change (w.disk.put _ _).get? (w.disk.locationOf p) = _
    rw [hopen.get?_put, if_pos rfl]

/-- A try to make a directory leaves it there if it succeeds, where its failure does. -/
theorem stands_of_tryDirectory {p : Path} {k : Failure → Session Unit} {w w' : World}
    (hw : w.disk.Plain)
    (hk : ∀ f v, v.disk.Plain → (k f).perform v = (.ok (), w') → w'.disk.Stands p)
    (h : (tryDirectory p k).perform w = (.ok (), w')) : w'.disk.Stands p := by
  obtain ⟨r, v, h₁, h₂⟩ := bind_ok h
  have hr := attempt_ok h₁
  have hv := (makeDirectory_edits (P := fun _ => False) p w hw).plain
  rw [hr] at hv
  cases r with
  | ok u =>
      obtain rfl := (Prod.mk.inj h₂).2
      exact stands_of_makeDirectory hw hr
  | error f => exact hk f v hv h₂

theorem stands_of_passUnlessMissing {p : Path} {f : Failure} {w w' : World} (hw : w.disk.Plain)
    (h : (passUnlessMissing p f).perform w = (.ok (), w')) : w'.disk.Stands p := by
  unfold passUnlessMissing at h
  split at h
  · cases h
  · exact stands_of_passIfThere hw h

/-- **A directory that was made is there.** -/
theorem stands_of_ensureDirectory {p : Path} {w w' : World} (hw : w.disk.Plain)
    (h : (ensureDirectory p).perform w = (.ok (), w')) : w'.disk.Stands p := by
  unfold ensureDirectory at h
  cases hdepth : p.names.length with
  | zero =>
      rw [hdepth, ensureWithin_zero] at h
      exact stands_of_tryDirectory hw (fun f v hv hf => stands_of_passUnlessMissing hv hf) h
  | succ depth =>
      rw [hdepth, ensureWithin_succ] at h
      refine stands_of_tryDirectory hw (fun f v hv hf => ?_) h
      split at hf
      · obtain ⟨_, u, hparent, hagain⟩ := bind_ok hf
        have hu := (ensureWithin_edits (P := fun _ => False) depth p.parent v hv).plain
        rw [hparent] at hu
        exact stands_of_tryDirectory hu (fun g x hx hg => stands_of_passUnlessMissing hx hg) hagain
      · exact stands_of_passIfThere hv hf

/-! ### Removal -/

theorem perform_discard (p : Path) (w : World) :
    (discard p).perform w =
      match w.disk.unlink p with
      | .ok d => (.ok true, { w with disk := d })
      | .error f =>
        if isNoEntry f then (.ok false, w)
        else if f.isSystem then
          (log .debug .filesystem s!"Could not delete {p.text}: {f.message}" >>=
            fun _ => pure false : Session Bool).perform w
        else (.error f, w) := by
  unfold discard
  rw [perform_bind, perform_attempt, perform_change]
  cases h : w.disk.unlink p with
  | ok d => rfl
  | error f =>
      simp only
      split
      · rfl
      · split <;> rfl

/-- What discarding a file does to the disk: the file is removed, or nothing happens. -/
theorem discard_disk (p : Path) (w : World) :
    w.disk.unlink p = .ok ((discard p).perform w).2.disk ∨
      (∃ f, w.disk.unlink p = .error f) ∧ ((discard p).perform w).2.disk = w.disk := by
  rw [perform_discard]
  cases h : w.disk.unlink p with
  | ok d => exact .inl rfl
  | error f =>
      refine .inr ⟨⟨f, rfl⟩, ?_⟩
      simp only
      split
      · rfl
      · split <;> rfl

theorem discard_edits {p : Path} (hp : P p) : (discard p).Moves (Motion.edits P) := by
  intro w hw
  rcases discard_disk p w with h | ⟨-, h⟩
  · obtain ⟨hopen, heq⟩ := unlink_ok hw h
    rw [heq]
    exact Edited.erase hw hopen.vacant hopen.ne_nil ⟨p, hp, rfl⟩
  · rw [h]
    exact Edited.refl hw

/-- **A file that can be found is gone after it is discarded**, and nothing fails. -/
theorem discard_file {p : Path} {w : World} (hw : w.disk.Plain) {place : Place}
    (hfind : w.disk.find false p = .ok place) (hp : p.names ≠ []) {b : List UInt8} {m : Nat}
    (hfile : w.disk.get? (w.disk.locationOf p) = some (.file b m)) :
    (discard p).perform w =
      (.ok true, { w with disk := w.disk.erase (w.disk.locationOf p) }) := by
  obtain ⟨-, -, rfl⟩ := find_ok hw hfind
  have hunlink : w.disk.unlink p = .ok (w.disk.erase (w.disk.locationOf p)) := by
    rw [unlink, hfind]
    simp [seen, hp, hfile]
  rw [perform_discard, hunlink]

/-- Nothing happens where nothing can be found. -/
theorem discard_none {p : Path} {w : World} (hw : w.disk.Plain) {place : Place}
    (hfind : w.disk.find false p = .ok place) (hp : p.names ≠ [])
    (hnone : w.disk.get? (w.disk.locationOf p) = none) :
    (discard p).perform w = (.ok false, w) := by
  obtain ⟨-, -, rfl⟩ := find_ok hw hfind
  have hunlink : w.disk.unlink p = .error (failAt p .noEntry) := by
    rw [unlink, hfind]
    simp [seen, hp, hnone]
  rw [perform_discard, hunlink]
  rfl

/-- Nothing fails for a path that the system can be given. -/
theorem discard_ok {p : Path} {w : World} (h : hasNul p = false) :
    ∃ b, ((discard p).perform w).1 = .ok b := by
  have hsystem {f : Failure} (hf : w.disk.unlink p = .error f) : f.isSystem = true := by
    unfold unlink find at hf
    rw [h] at hf
    simp only [Bool.false_eq_true, if_false] at hf
    split at hf
    · next g hfind =>
      split at hfind
      · cases hfind
      · obtain rfl := Except.error.inj hfind
        obtain rfl := Except.error.inj hf
        rfl
    · split at hf
      · obtain rfl := Except.error.inj hf
        rfl
      · obtain rfl := Except.error.inj hf
        rfl
      · cases hf
  rw [perform_discard]
  cases hunlink : w.disk.unlink p with
  | ok d => exact ⟨true, rfl⟩
  | error f =>
      simp only
      split
      · exact ⟨false, rfl⟩
      · rw [if_pos (hsystem hunlink)]
        exact ⟨false, rfl⟩

/-! ### Executables -/

theorem copyExecutable_edits {source destination : Path} (hp : P destination) :
    (copyExecutable source destination).Moves (Motion.edits P) := by
  refine .bind (ensureDirectory_edits _) fun _ => moves_change ?_
  intro d e hd h
  obtain ⟨-, b, -, hwrite⟩ := copyFile_ok h
  obtain ⟨m, hopen, rfl, -⟩ := write_ok hd hwrite
  exact Edited.put hd hopen (by simp) (.inl ⟨_, hp, rfl⟩)

theorem makeExecutable_edits {p : Path} (hp : P p) :
    (makeExecutable p).Moves (Motion.edits P) := by
  refine moves_change ?_
  intro d e hd h
  rcases setMode_ok hd h with ⟨rfl, -⟩ | ⟨b, m, hopen, -, rfl⟩
  · exact Edited.refl hd
  · exact Edited.put hd hopen (by simp) (.inl ⟨_, hp, rfl⟩)

/-! ### The binary that is found -/

/-- The search for a binary is one look at the disk. -/
theorem findBinary_eq (directory : Path) (name : String) :
    findBinary directory name = look (·.executable? directory name) := by
  refine eq_of_perform fun w => ?_
  unfold findBinary Disk.executable?
  rw [perform_bind, perform_look, perform_look]
  rcases w.disk.exists? (directory.child name) with f | _ | _
  · rfl
  · simp only [Bool.false_eq_true, if_false]
    rw [perform_bind, perform_look]
    rcases w.disk.exists? (directory.child (name ++ ".exe")) with f | _ | _ <;> rfl
  · rfl

theorem findBinary_moves {T : Motion} (directory : Path) (name : String) :
    (findBinary directory name).Moves T := by
  rw [findBinary_eq]
  exact .look _

end Files

end ReleaseFetch
