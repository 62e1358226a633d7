/-
**A fresh asset that is asked for.**

An order for a fresh asset does not look at the cache: what was kept there is written over or
discarded, whatever it was.  So two installations of such an order on plain disks that differ in the
kept asset at most send the same requests, write the same journal and end in the same way, and once
their destination is there they leave the same disk.

Main definitions:

* `ReleaseFetch.Disk.DifferAt` — two disks differ at most in what a path leads to.

Main results:

* `ReleaseFetch.Installer.download_meets`, `ReleaseFetch.Installer.obtain_meets` — the asset is
  the same in the end;
* `ReleaseFetch.Installer.finish_agrees` — it is installed in the same way;
* `ReleaseFetch.Installer.forced_ignores_cache` — a whole installation.
-/

import ReleaseFetch.Proofs.Install.Clearing
import ReleaseFetch.Proofs.Transfer.Meeting

set_option autoImplicit false

namespace ReleaseFetch

open Disk Session

variable {R : Disk → Disk → Prop}

/-! ### Finding an asset -/

theorem Client.getText_keeps (c : Client) (h : Host) (url : String) (o : Options) :
    Keeps R (c.getText h url o) := by
  rw [getText_eq]
  refine .bind (Quiet.log _ _ _).keeps fun _ => .bind (Quiet.give _).keeps fun headers =>
    .bind (Proxy.forRequest_quiet h url o).keeps fun proxy =>
      .bind (noteProxy_quiet proxy).keeps fun _ => .bind ?_ fun response => ?_
  · refine .handle ((blind_send _).matches fun _ _ _ hR => hR) fun result => ?_
    cases result with
    | ok r => exact (Quiet.pure r).keeps
    | error f =>
        simp only
        split
        · exact (Quiet.fail _).keeps
        · exact (Quiet.throw f).keeps
  · split
    · exact .bind (Quiet.fail _).keeps fun _ => (Quiet.pure _).keeps
    · exact (Quiet.pure _).keeps

theorem Release.locate_keeps (c : Client) (h : Host) (q : Release.Query) :
    Keeps R (Release.locate c h q) :=
  .bind (Quiet.log _ _ _).keeps fun _ => .bind (c.getText_keeps h _ _) fun body =>
    .bind (readListing_quiet body).keeps fun listing => (pick_quiet listing q.asset).keeps

namespace Installer

variable {i : Installer} {o : Order} {h : Host} {c : Client} {limit : Int}

/-! ### The parts of an installation -/

/-- A download makes the disks the same, or fails. -/
theorem download_meets (htransport : i.transport = .stream h c limit)
    (hmeets : Stream.Meets R (i.assetPath o.version o.target)) :
    Matches R (i.download o) (Ends Agrees (OrAgrees R)) := by
  refine .bind (Release.locate_keeps _ _ _) (fun asset => ?_) fun _ _ _ hR => .inl hR
  refine .bind (Quiet.log _ _ _).keeps (fun _ => ?_) fun _ _ _ hR => .inl hR
  refine .bind (Quiet.log _ _ _).keeps (fun _ => ?_) fun _ _ _ hR => .inl hR
  rw [htransport]
  exact hmeets.follow c h _ _ _ _ _

/-- **A download into the cache makes the disks the same**, however it ends. -/
theorem renew_meets (htransport : i.transport = .stream h c limit)
    (hmeets : Stream.Meets R (i.assetPath o.version o.target)) :
    Matches R (i.renew o) fun _ => Agrees := by
  have hthrow (f : Failure) : Matches Agrees (throw f : Session Path) fun _ => Agrees :=
    .throw f fun _ _ hR => hR
  refine .handle (download_meets htransport hmeets) fun result => ?_
  cases result with
  | ok u => exact (Quiet.pure _).keeps
  | error f =>
      refine .bind (.log _ _ _) (fun _ => ?_) fun _ _ _ hR => hR.elim
      exact .or (hmeets.discard (hthrow f) fun _ _ _ hR => hR)
        (.bind (Files.discard_agrees _) (fun _ => hthrow f) fun _ _ _ hR => hR)

/-- A fresh asset is not looked for in the cache. -/
theorem obtain_of_force (hforce : o.force = true) :
    i.obtain o = Files.ensureDirectory i.cacheDir >>= fun _ => i.renew o := by
  rw [obtain_eq, reuse, hforce]
  simp only [if_true, pure_bind, Bool.false_eq_true, if_false]

/-- **A fresh asset is the same on both disks**, whatever was kept before. -/
theorem obtain_meets (htransport : i.transport = .stream h c limit)
    (hname : IsEntryName (i.assetName o.version o.target)) (hforce : o.force = true)
    (hmeets : Stream.Meets R (i.assetPath o.version o.target)) :
    Matches R (i.obtain o) fun _ => Agrees := by
  have hparent := hmeets.parent
  rw [parent_assetPath hname] at hparent
  rw [obtain_of_force hforce]
  exact .bind hparent (fun _ => renew_meets htransport hmeets) fun _ _ _ hR => hR

theorem place_agrees (asset directory : Path) : Keeps Agrees (i.place asset directory) := by
  refine .bind (.bind (Files.copyExecutable_agrees _ _) fun _ =>
    .bind (Files.findBinary_agrees _ _) fun binary => ?_) fun binary => ?_
  · cases binary with
    | none => exact (Quiet.fail _).keeps
    | some p => exact (Quiet.pure p).keeps
  · cases i.host.isWindows with
    | true => exact (Quiet.pure _).keeps
    | false => exact .bind (Files.makeExecutable_agrees binary) fun _ => (Quiet.pure _).keeps

/-- Disks that look the same do so after an asset is installed. -/
theorem finish_agrees (asset : Path) : Keeps Agrees (i.finish o asset) := by
  refine .bind (Quiet.log _ _ _).keeps fun _ =>
    .handle (i.place_agrees asset o.destination) fun result => ?_
  cases result with
  | ok binary => exact .bind (Quiet.log _ _ _).keeps fun _ => (Quiet.pure _).keeps
  | error f =>
      simp only
      cases f.isInterrupt with
      | true => exact (Quiet.throw f).keeps
      | false =>
          exact .bind (Quiet.log _ _ _).keeps fun _ =>
            .bind (Files.discard_agrees _) fun _ => (Quiet.throw f).keeps

/-! ### A whole installation -/

/-- An installation ends the same on both disks, and leaves the same one once its destination is
there. -/
theorem install_meets (htransport : i.transport = .stream h c limit)
    (hname : IsEntryName (i.assetName o.version o.target)) (hforce : o.force = true)
    (hmeets : Stream.Meets R (i.assetPath o.version o.target))
    (hmake : Keeps R (Files.ensureDirectory o.destination)) {w : World} {e : Disk}
    (hR : R w.disk e) :
    ∃ e', (i.install o).perform (w.onDisk e) =
        (((i.install o).perform w).1, ((i.install o).perform w).2.onDisk e') ∧
      (o.check = .ok () → ((Files.ensureDirectory o.destination).perform w).1 = .ok () →
        ((i.install o).perform w).2.disk.Agrees e') := by
  have hrest : Matches R (i.obtain o >>= i.finish o) fun _ => Agrees :=
    .bind (obtain_meets htransport hname hforce hmeets) finish_agrees fun _ _ _ hR => hR
  rw [install_eq, perform_bind, perform_bind, perform_give, perform_give]
  cases hcheck : o.check with
  | error p => exact ⟨e, rfl, fun h => by cases h⟩
  | ok u =>
      obtain ⟨e', hperform, hR'⟩ := hmake w e hR
      simp only [Except.mapError]
      rw [perform_bind, perform_bind, hperform]
      rcases hensure : (Files.ensureDirectory o.destination).perform w with ⟨result, v⟩
      rw [hensure] at hR'
      cases result with
      | error f => exact ⟨e', rfl, fun _ h => by cases h⟩
      | ok _ =>
          obtain ⟨e'', hperform', hagrees⟩ := hrest v e' hR'
          exact ⟨e'', hperform', fun _ _ => hagrees⟩

end Installer

/-- Two disks differ at most in what a path leads to, which is a directory on neither. -/
def Disk.DifferAt (p : Path) (d e : Disk) : Prop :=
  ∀ l, d.get? l ≠ e.get? l → ∃ x y, d.find false p = .ok ⟨l, x⟩ ∧ e.find false p = .ok ⟨l, y⟩ ∧
    x ≠ some .directory ∧ y ≠ some .directory

namespace Installer

variable {i : Installer} {o : Order} {h : Host} {c : Client} {limit : Int}

/-- Disks that differ in the kept asset at most look the same, or are near each other. -/
theorem near_of_differAt {cache : Path} {name : String} {d e : Disk} (hname : IsEntryName name)
    (hnul : '\x00' ∉ name.toList) (hleft : Stocked d cache d) (hright : Stocked d cache e)
    (hdiffer : DifferAt (cache.child name) d e) :
    d.Agrees e ∨ Fits (cache.child name) ∧ Near d cache name d e := by
  by_cases hsame : d.SameView e
  · exact .inl ⟨hsame, hright.here.symm⟩
  right
  -- where the disks differ, the path leads to the entry
  have hentry {l : Location} (hl : d.get? l ≠ e.get? l) :
      Fits (cache.child name) ∧ l = name :: d.locationOf cache ∧
        d.get? l ≠ some .directory ∧ e.get? l ≠ some .directory := by
    obtain ⟨x, y, hx, hy, hxdir, hydir⟩ := hdiffer l hl
    rcases hleft.find_child_cases hname hnul with ⟨hfits, hfind⟩ | ⟨-, f, hfail⟩
    · obtain ⟨hloc, -⟩ := Place.mk.inj (Except.ok.inj (hx.symm.trans hfind))
      exact ⟨hfits, hloc, find_entry hx hxdir ▸ hxdir, find_entry hy hydir ▸ hydir⟩
    · rw [hfail] at hx
      cases hx
  obtain ⟨l, hl⟩ := Classical.not_forall.1 hsame
  obtain ⟨hfits, rfl, hldir, hrdir⟩ := hentry hl
  refine ⟨hfits, hleft, hright, fun {k} hk => ?_, hldir, hrdir⟩
  by_contra hne
  exact hk (hentry hne).2.1

/-- **An order for a fresh asset ignores the cache.**  On plain disks that have the cache and differ
in the kept asset at most, two installations send the same requests, write the same journal and end
in the same way; and if the order passes its check and its destination can be made, they leave the
same disk, the asset included. -/
theorem forced_ignores_cache (htransport : i.transport = .stream h c limit)
    (hcache : i.cacheDir.Readable) (htool : IsPart i.config.toolName) (hversion : IsPart o.version)
    (htarget : IsPart o.target) (hdest : o.destination.Descends) (hforce : o.force = true)
    {w : World} {e : Disk} (hleft : Stocked w.disk i.cacheDir w.disk)
    (hright : Stocked w.disk i.cacheDir e)
    (hdiffer : DifferAt (i.assetPath o.version o.target) w.disk e)
    (haway : ¬w.disk.locationOf (i.assetPath o.version o.target) <:+
      w.disk.locationOf o.destination) :
    ∃ e', (i.install o).perform (w.onDisk e) =
        (((i.install o).perform w).1, ((i.install o).perform w).2.onDisk e') ∧
      (o.check = .ok () → ((Files.ensureDirectory o.destination).perform w).1 = .ok () →
        ((i.install o).perform w).2.disk.Agrees e') := by
  have hname := isEntryName_assetName htool.noSlash hversion.noSlash htarget.noSlash (i := i)
  have hnul := noNul_assetName htool hversion htarget
  rcases near_of_differAt hname hnul hleft hright hdiffer with hsame | ⟨hfits, hnear⟩
  · exact install_meets htransport hname hforce (Stream.meets_agrees _)
      (Files.ensureDirectory_agrees _) hsame
  · -- the destination keeps away from the asset
    have havoids : Avoids (i.assetName o.version o.target :: w.disk.locationOf i.cacheDir) w.disk
        o.destination := by
      rw [assetPath, locationOf_child _ _ hname] at haway
      exact ⟨hdest.isName, haway⟩
    have hmake : Keeps (Near w.disk i.cacheDir (i.assetName o.version o.target))
        (Files.ensureDirectory o.destination) :=
      Files.ensureDirectory_keeps (fun _ hp => Avoids.parent hp)
        (fun _ hp _ _ hR => Near.follows hR hp) havoids
    exact install_meets htransport hname hforce (Stream.meets_near hcache hname hnul hfits) hmake
      hnear

/-- A disk with an empty cache. -/
def emptyDisk : Disk := ⟨[(["cache"], .directory)], []⟩

/-- An old asset does not show in what a fresh one is installed from. -/
theorem forced_ignores_cache_streamed :
    ∃ e', ((streaming ⟨.here, ["cache"]⟩).install forcedOrder).perform
        (.fresh emptyDisk firstAnswers) =
      ((((streaming ⟨.here, ["cache"]⟩).install forcedOrder).perform
          (.fresh oldDisk firstAnswers)).1,
        (((streaming ⟨.here, ["cache"]⟩).install forcedOrder).perform
          (.fresh oldDisk firstAnswers)).2.onDisk e') ∧
      (((streaming ⟨.here, ["cache"]⟩).install forcedOrder).perform
        (.fresh oldDisk firstAnswers)).2.disk.Agrees e' := by
  have hleft : Stocked oldDisk ⟨.here, ["cache"]⟩ oldDisk :=
    ⟨plain_of_isPlain (by decide), rfl, by decide +kernel, rfl⟩
  have hright : Stocked oldDisk ⟨.here, ["cache"]⟩ emptyDisk :=
    ⟨plain_of_isPlain (by decide), rfl, by decide +kernel, rfl⟩
  have hdiffer : DifferAt ((streaming ⟨.here, ["cache"]⟩).assetPath "v1" "t1") oldDisk
      emptyDisk := by
    intro l hl
    obtain rfl : l = ["tool-v1-t1", "cache"] := by
      by_contra hne
      refine hl ?_
      unfold Disk.get? oldDisk emptyDisk
      simp [List.lookup_cons, beq_false_of_ne hne]
    exact ⟨some (.file [0] 0o644), none, by decide +kernel, by decide +kernel, by simp, by simp⟩
  obtain ⟨e', hrun, hagrees⟩ := forced_ignores_cache (i := streaming ⟨.here, ["cache"]⟩)
    (o := forcedOrder) rfl (by simp [Path.Readable, streaming, ofTool]) ⟨by decide, by decide⟩
    ⟨by decide, by decide⟩ ⟨by decide, by decide⟩
    ⟨by simp [Path.Readable, forcedOrder], rfl⟩ rfl (w := .fresh oldDisk firstAnswers) hleft hright
    hdiffer (by decide +kernel)
  exact ⟨e', hrun, hagrees rfl (by decide +kernel)⟩

end Installer

end ReleaseFetch
