/-
**What an installation leaves alone.**

On a disk without links, an installation touches the asset in the cache, the installed binary, and
the directories on the way to its two directories.  However it ends, everything else is as it was.
Up to the copy the binary is not touched either, so an upgrade that fails before it leaves the old
binary where it is.

Main definitions:

* `ReleaseFetch.Installer.acquire` — the part of an installation that comes before the copy.

Main results:

* `ReleaseFetch.Installer.place_edits` — placing an asset changes the installed file only;
* `ReleaseFetch.Installer.install_edits`, `ReleaseFetch.Installer.install_builds` — the files that
  an installation changes, and the directories that it makes;
* `ReleaseFetch.Installer.install_leaves_rest` — everything else stays.
-/

import ReleaseFetch.Proofs.Disk.Building
import ReleaseFetch.Proofs.Install.Outcome

set_option autoImplicit false

namespace ReleaseFetch

open Disk Session

/-- The entry of a directory lies in it, unless its name names the directory itself. -/
theorem Path.parent_child_cases (p : Path) {name : String} (h : '/' ∉ name.toList) :
    (p.child name).parent = p ∨ (p.child name).parent = p.parent := by
  rw [child, ofText_of_noSlash h]
  by_cases hn : name = "" ∨ name = "."
  · right
    rw [if_pos hn]
    simp [join, parent]
  · left
    rw [if_neg hn]
    simp [join, parent]

/-- A file that a path shows is shown after changes elsewhere. -/
theorem Disk.Edited.seen_file {S : Location → Prop} {d e : Disk} (h : Edited S d e) {p : Path}
    (hp : ¬S (d.locationOf p)) {b : List UInt8} {m : Nat} (hfile : d.seen p = some (.file b m)) :
    e.seen p = some (.file b m) := by
  obtain ⟨hnames, hseen⟩ := seen_of_ne_directory (d := d) (p := p) (by simp [hfile])
  rw [seen, if_neg hnames, h.locationOf, h.file_iff hp, ← hseen, hfile]

namespace Installer

variable {i : Installer} {o : Order} {T : Motion} {h : Host} {c : Client} {limit : Int}

/-! ### The parts of an installation -/

/-- The part of an installation that comes before the copy: the order is checked, its destination is
made, and its asset is obtained. -/
def acquire (i : Installer) (o : Order) : Session Path := do
  give (o.check.mapError .problem)
  Files.ensureDirectory o.destination
  i.obtain o

/-- An asset is acquired, and then placed. -/
theorem install_eq_acquire (i : Installer) (o : Order) :
    i.install o = i.acquire o >>= i.finish o := by
  rw [install_eq, acquire]
  simp only [bind_assoc]

/-- An installation that fails before the copy ends there. -/
theorem install_of_acquire {f : Failure} {w v : World}
    (hfail : (i.acquire o).perform w = (.error f, v)) :
    (i.install o).perform w = (.error f, v) := by
  rw [install_eq_acquire, perform_bind, hfail]

/-- A motion holds of obtaining an asset if it holds of making the cache, of the download and of
discarding the asset. -/
theorem obtain_moves (hmake : (Files.ensureDirectory i.cacheDir).Moves T)
    (hdownload : (i.download o).Moves T)
    (hdiscard : (Files.discard (i.assetPath o.version o.target)).Moves T) :
    (i.obtain o).Moves T := by
  rw [obtain_eq]
  refine .bind hmake fun _ => .bind ?_ fun cached => ?_
  · unfold reuse
    split
    · exact .pure _
    · exact .look _
  · cases cached with
    | true => exact .bind (.log _ _ _) fun _ => .pure _
    | false =>
        refine .bind (.attempt hdownload) ?_
        intro result
        cases result with
        | ok u => exact .pure _
        | error f => exact .bind (.log _ _ _) fun _ => .bind hdiscard fun _ => .throw f

/-- A motion holds of the end of an installation if it holds of placing and of discarding the
asset. -/
theorem finish_moves {asset : Path} (hplace : (i.place asset o.destination).Moves T)
    (hdiscard : (Files.discard (i.assetPath o.version o.target)).Moves T) :
    (i.finish o asset).Moves T := by
  refine .bind (.log _ _ _) fun _ => .bind (.attempt hplace) ?_
  intro result
  cases result with
  | ok binary => exact .bind (.log _ _ _) fun _ => .pure _
  | error f =>
      simp only
      cases f.isInterrupt with
      | true => exact .throw f
      | false => exact .bind (.log _ _ _) fun _ => .bind hdiscard fun _ => .throw f

/-- A motion holds of extracting an asset if it holds of copying it. -/
theorem extract_moves {asset directory : Path}
    (hcopy : (Files.copyExecutable asset (directory.child i.installedName)).Moves T) :
    (i.extract asset directory).Moves T := by
  refine .bind hcopy fun _ => .bind (Files.findBinary_moves _ _) fun binary => ?_
  cases binary with
  | none => exact .fail _
  | some p => exact .pure _

/-- A motion holds of placing an asset if it holds of copying it and of setting modes. -/
theorem place_moves {asset directory : Path}
    (hcopy : (Files.copyExecutable asset (directory.child i.installedName)).Moves T)
    (hmode : ∀ p, (Files.makeExecutable p).Moves T) : (i.place asset directory).Moves T := by
  refine .bind (extract_moves hcopy) fun binary => ?_
  cases i.host.isWindows with
  | true => exact .pure _
  | false => exact .bind (hmode binary) fun _ => .pure _

/-! ### The files that change -/

/-- Off Windows the binary that is found is the one that was copied. -/
theorem extract_ok (hhost : i.host.isWindows = false) {asset directory binary : Path} {w w' : World}
    (hw : w.disk.Plain) (hok : (i.extract asset directory).perform w = (.ok binary, w')) :
    binary = directory.child i.installedName := by
  obtain ⟨hcopy, hfound⟩ := extract_steps hok
  obtain ⟨b, k, m, -, hholds, -⟩ := copyExecutable_ok hw hcopy
  rw [installedName_of_not_windows hhost] at hholds ⊢
  exact Option.some.inj (Except.ok.inj (hfound.symm.trans (executable?_of_exists hholds.exists?)))

/-- **Placing an asset changes the installed file only.** -/
theorem place_edits {P : Path → Prop} (asset : Path) {directory : Path}
    (hP : P (directory.child i.installedName)) :
    (i.place asset directory).Moves (Motion.edits P) := by
  have hextracts : (i.extract asset directory).Moves (Motion.edits P) :=
    extract_moves (Files.copyExecutable_edits hP)
  intro w hw
  have hedit := hextracts w hw
  unfold place
  rw [perform_bind]
  rcases hextract : (i.extract asset directory).perform w with ⟨result, v⟩
  rw [hextract] at hedit
  cases result with
  | error f => exact hedit
  | ok binary =>
      cases hhost : i.host.isWindows with
      | true => exact hedit
      | false =>
          -- the binary that is made executable is the one that was copied
          rw [← extract_ok hhost hw hextract] at hP
          have hmode : (Files.makeExecutable binary >>= fun _ => pure binary :
              Session Path).Moves (Motion.edits P) :=
            .bind (Files.makeExecutable_edits hP) fun _ => .pure _
          exact (Motion.edits P).trans (fun _ => hedit) (hmode v) hw

/-- Obtaining an asset changes the asset only. -/
theorem obtain_edits (htransport : i.transport = .stream h c limit)
    (hcache : i.cacheDir.Readable) (hname : IsEntryName (i.assetName o.version o.target))
    {P : Path → Prop} (hP : P (i.assetPath o.version o.target)) :
    (i.obtain o).Moves (Motion.edits P) := by
  intro w hw
  rcases hobtain : (i.obtain o).perform w with ⟨out, w'⟩
  have hedit : Edited (· = w.disk.locationOf (i.assetPath o.version o.target)) w.disk w'.disk := by
    cases obtain_spec htransport hcache hname hw hobtain with
    | cached notForced traffic edited => exact edited.mono fun _ => False.elim
    | fetched asked fetched edited file => exact edited
    | failed spared => exact (spared hw).1
  exact hedit.mono fun l hl => ⟨_, hP, hl⟩

/-- Up to the copy an installation changes the asset only. -/
theorem acquire_edits (htransport : i.transport = .stream h c limit)
    (hcache : i.cacheDir.Readable) (hname : IsEntryName (i.assetName o.version o.target))
    {P : Path → Prop} (hP : P (i.assetPath o.version o.target)) :
    (i.acquire o).Moves (Motion.edits P) :=
  .bind (.give _) fun _ => .bind (Files.ensureDirectory_edits _) fun _ =>
    obtain_edits htransport hcache hname hP

/-- **An installation changes the asset and the installed file only.** -/
theorem install_edits (htransport : i.transport = .stream h c limit)
    (hcache : i.cacheDir.Readable) (hname : IsEntryName (i.assetName o.version o.target))
    {P : Path → Prop} (hasset : P (i.assetPath o.version o.target))
    (hbinary : P (o.destination.child i.installedName)) :
    (i.install o).Moves (Motion.edits P) := by
  rw [install_eq_acquire]
  exact .bind (acquire_edits htransport hcache hname hasset) fun asset =>
    finish_moves (place_edits asset hbinary) (Files.discard_edits hasset)

/-! ### The directories that are made -/

theorem download_builds (htransport : i.transport = .stream h c limit) {Q : Path → Prop}
    (hcache : i.cacheDir.Descends) (hQ : Q i.cacheDir)
    (hname : IsEntryName (i.assetName o.version o.target)) :
    (i.download o).Moves (Motion.builds Q) := by
  have hparent : (i.assetPath o.version o.target).parent = i.cacheDir := Path.parent_child _ hname
  refine .bind (Release.locate_still _ _ _).builds fun asset =>
    .bind (.log _ _ _) fun _ => .bind (.log _ _ _) fun _ => ?_
  rw [htransport]
  exact Stream.download_builds c h limit asset.url _ (hparent ▸
    Files.ensureDirectory_builds hcache hQ fun _ => List.suffix_refl _)

/-- Copying an asset makes the destination and those above it. -/
theorem copyExecutable_builds {Q : Path → Prop} (htool : '/' ∉ i.config.toolName.toList)
    {directory : Path} (hdest : directory.Descends) (hQ : Q directory) (asset : Path) :
    (Files.copyExecutable asset (directory.child i.installedName)).Moves (Motion.builds Q) := by
  -- the directory of the installed file is the destination, or the one above it
  have hparent : (directory.child i.installedName).parent.Descends ∧ ∀ d : Disk,
      d.locationOf (directory.child i.installedName).parent <:+ d.locationOf directory := by
    rcases directory.parent_child_cases (noSlash_installedName htool) with heq | heq
    · rw [heq]
      exact ⟨hdest, fun _ => List.suffix_refl _⟩
    · rw [heq]
      exact ⟨hdest.parent, hdest.parent_suffix⟩
  exact Files.copyExecutable_builds hparent.1 hQ hparent.2

/-- **An installation makes its two directories and those above them.** -/
theorem install_builds (htransport : i.transport = .stream h c limit) {Q : Path → Prop}
    (hcache : i.cacheDir.Descends) (hQcache : Q i.cacheDir)
    (htool : '/' ∉ i.config.toolName.toList)
    (hname : IsEntryName (i.assetName o.version o.target)) (hdest : o.destination.Descends)
    (hQdest : Q o.destination) : (i.install o).Moves (Motion.builds Q) := by
  rw [install_eq_acquire]
  refine .bind (.bind (.give _) fun _ => .bind
    (Files.ensureDirectory_builds hdest hQdest fun _ => List.suffix_refl _) fun _ => ?_)
    fun asset => ?_
  · exact obtain_moves (Files.ensureDirectory_builds hcache hQcache fun _ => List.suffix_refl _)
      (download_builds htransport hcache hQcache hname) (Files.discard_builds _)
  · exact finish_moves (place_moves (copyExecutable_builds htool hdest hQdest asset)
      Files.makeExecutable_builds) (Files.discard_builds _)

/-! ### Everything else -/

/-- The installed file is none of the cache, or its name names the destination itself. -/
theorem isEntryName_installed (htool : '/' ∉ i.config.toolName.toList)
    (hdots : i.config.toolName ≠ "..") :
    IsEntryName i.installedName ∨ o.destination.child i.installedName = o.destination := by
  have hslash := noSlash_installedName htool
  by_cases hn : i.installedName = "" ∨ i.installedName = "."
  · right
    rw [Path.child, Path.ofText_of_noSlash hslash, if_pos hn]
    simp [Path.join]
  · left
    obtain ⟨hempty, hdot⟩ := not_or.1 hn
    refine ⟨hslash, hempty, hdot, fun heq => ?_⟩
    -- with its suffix the name of a tool is no dots
    unfold installedName at heq
    split at heq
    · have hlen := congrArg String.length heq
      rw [String.length_append] at hlen
      have hsuffix : windowsExtension.length = 4 := rfl
      have hdots' : ("..").length = 2 := rfl
      omega
    · exact hdots heq

/-- **Up to the copy the old binary stays.** -/
theorem acquire_keeps_binary (htransport : i.transport = .stream h c limit)
    (hcache : i.cacheDir.Readable) (htool : '/' ∉ i.config.toolName.toList)
    (hdots : i.config.toolName ≠ "..") (hname : IsEntryName (i.assetName o.version o.target))
    {w v : World} (hw : w.disk.Plain) {f : Failure}
    (hfail : (i.acquire o).perform w = (.error f, v)) {b : List UInt8} {m : Nat}
    (hfile : w.disk.seen (o.destination.child i.installedName) = some (.file b m)) :
    v.disk.seen (o.destination.child i.installedName) = some (.file b m) := by
  have hedit := acquire_edits htransport hcache hname (P := (· = i.assetPath o.version o.target))
    rfl w hw
  rw [hfail] at hedit
  rcases isEntryName_installed (o := o) htool hdots with hentry | hsame
  · -- an asset never has the name of the installed file
    refine hedit.seen_file ?_ hfile
    rintro ⟨p, rfl, heq⟩
    rw [assetPath, locationOf_child _ _ hname, locationOf_child _ _ hentry] at heq
    exact assetName_ne_installed i _ _ (List.cons.inj heq).1.symm
  · -- the destination itself is a file, so it cannot be made
    rw [hsame] at hfile ⊢
    have hmade := Files.ensureDirectory_edited o.destination hw
    unfold acquire at hfail
    rw [perform_bind, perform_give] at hfail
    cases hcheck : o.check.mapError Failure.problem with
    | error g =>
        rw [hcheck] at hfail
        obtain ⟨-, rfl⟩ := Prod.mk.inj hfail
        exact hfile
    | ok u =>
        rw [hcheck] at hfail
        simp only at hfail
        rw [perform_bind] at hfail
        rcases hensure : (Files.ensureDirectory o.destination).perform w with ⟨result, w₁⟩
        rw [hensure] at hfail hmade
        cases result with
        | error g =>
            obtain ⟨-, rfl⟩ := Prod.mk.inj hfail
            exact hmade.seen_file id hfile
        | ok u =>
            have hstands := (Files.stands_of_ensureDirectory hw hensure).seen
            rw [hmade.seen_file id hfile] at hstands
            cases hstands

/-- **What an installation leaves alone**, however it ends: everything but the asset, the installed
file, its two directories and those above them; all directories; and, if it fails before the copy,
the old binary.  An order that does not pass its check changes nothing at all. -/
theorem install_leaves_rest (htransport : i.transport = .stream h c limit)
    (hcache : i.cacheDir.Descends) (htool : IsPart i.config.toolName)
    (hdots : i.config.toolName ≠ "..") (hversion : IsPart o.version) (htarget : IsPart o.target)
    (hdest : o.destination.Descends) {w w' : World} (hw : w.disk.Plain) {out : Except Failure Path}
    (hout : (i.install o).perform w = (out, w')) :
    (∀ l, ¬l <:+ w.disk.locationOf o.destination → ¬l <:+ w.disk.locationOf i.cacheDir →
      l ≠ w.disk.locationOf (i.assetPath o.version o.target) →
      l ≠ w.disk.locationOf (o.destination.child i.installedName) →
      w'.disk.get? l = w.disk.get? l) ∧
    (∀ l, w.disk.get? l = some .directory → w'.disk.get? l = some .directory) ∧
    (∀ f v, (i.acquire o).perform w = (.error f, v) → out = .error f ∧ w' = v ∧
      ∀ b m, w.disk.seen (o.destination.child i.installedName) = some (.file b m) →
        w'.disk.seen (o.destination.child i.installedName) = some (.file b m)) ∧
    (∀ p, o.check = .error p → out = .error (.problem p) ∧ w' = w) := by
  have hname := isEntryName_assetName htool.noSlash hversion.noSlash htarget.noSlash
  have hedit := install_edits htransport hcache.readable hname
    (P := fun p => p = i.assetPath o.version o.target ∨ p = o.destination.child i.installedName)
    (.inl rfl) (.inr rfl) w hw
  have hbuilt := install_builds htransport (Q := fun p => p = o.destination ∨ p = i.cacheDir)
    hcache (.inr rfl) htool.noSlash hname hdest (.inl rfl) w hw
  rw [hout] at hedit hbuilt
  refine ⟨fun l hd hc ha hb => ?_, fun l => hedit.directory, fun f v hfail => ?_, fun p hcheck => ?_⟩
  · have hother : ¬∃ p, (p = i.assetPath o.version o.target ∨
        p = o.destination.child i.installedName) ∧ l = w.disk.locationOf p := by
      rintro ⟨p, hp, hl⟩
      rcases hp with hp | hp
      · exact ha (hp ▸ hl)
      · exact hb (hp ▸ hl)
    rcases hedit.kept l hother with hsame | ⟨hnone, hdir⟩
    · exact hsame
    · -- what was made is one of the directories
      rcases hbuilt.made hdir with hbefore | ⟨p, hp, hl⟩
      · rw [hnone] at hbefore
        cases hbefore
      · rcases hp with hp | hp
        · exact absurd (hp ▸ hl) hd
        · exact absurd (hp ▸ hl) hc
  · rw [install_of_acquire hfail] at hout
    obtain ⟨rfl, rfl⟩ := Prod.mk.inj hout
    exact ⟨rfl, rfl, fun b m => acquire_keeps_binary htransport hcache.readable htool.noSlash hdots
      hname hw hfail⟩
  · have hfail : (i.acquire o).perform w = (.error (.problem p), w) := by
      rw [acquire, perform_bind, perform_give, hcheck]
      rfl
    rw [install_of_acquire hfail] at hout
    obtain ⟨rfl, rfl⟩ := Prod.mk.inj hout
    exact ⟨rfl, rfl⟩

/-- A disk with an old binary at the destination, and a file beside it. -/
def upgradeDisk : Disk :=
  ⟨[(["out"], .directory), (["tool", "out"], .file [7] 0o755), (["notes"], .file [1] 0o644)], []⟩

/-- An upgrade that meets no answer leaves the old binary, and the file beside it. -/
theorem install_leaves_rest_offline :
    ∃ f w', ((streaming ⟨.here, ["cache"]⟩).install firstOrder).perform (.fresh upgradeDisk []) =
        (.error f, w') ∧
      w'.disk.seen ⟨.here, ["out", "tool"]⟩ = some (.file [7] 0o755) ∧
      w'.disk.get? ["notes"] = some (.file [1] 0o644) := by
  rcases hrun : ((streaming ⟨.here, ["cache"]⟩).install firstOrder).perform
    (.fresh upgradeDisk []) with ⟨out, w'⟩
  obtain ⟨hrest, -, hbinary, -⟩ := install_leaves_rest (i := streaming ⟨.here, ["cache"]⟩)
    (o := firstOrder) rfl ⟨by simp [Path.Readable, streaming, ofTool], rfl⟩
    ⟨by decide, by decide⟩ (by decide) ⟨by decide, by decide⟩ ⟨by decide, by decide⟩
    ⟨by simp [Path.Readable, firstOrder], rfl⟩ (w := .fresh upgradeDisk [])
    (plain_of_isPlain (by decide)) hrun
  -- the release cannot be asked for, which comes before the copy
  have hfail : (((streaming ⟨.here, ["cache"]⟩).acquire firstOrder).perform
      (.fresh upgradeDisk [])).1.isOk = false := by decide +kernel
  rcases hacquire : ((streaming ⟨.here, ["cache"]⟩).acquire firstOrder).perform
    (.fresh upgradeDisk []) with ⟨result, v⟩
  rw [hacquire] at hfail
  cases result with
  | ok p => cases hfail
  | error f =>
      obtain ⟨rfl, -, hold⟩ := hbinary f v hacquire
      refine ⟨f, w', rfl, hold [7] 0o755 (by decide +kernel), ?_⟩
      rw [hrest ["notes"] (by decide) (by decide) (by decide) (by decide)]
      rfl

end Installer

end ReleaseFetch
