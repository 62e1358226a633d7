/-
**A binary at its destination.**

An asset that was obtained is copied to its destination, found there, and made executable.  The
steps are local, so nothing is sent while they are taken.  When they succeed, the destination holds
the bytes of the asset, and the asset is where it was.

Main definitions:

* `ReleaseFetch.Installer.finish` — the part of an installation that comes after the asset is
  obtained.

Main results:

* `ReleaseFetch.Disk.isEntryName_of_write` — a file is written into a directory under a name of an
  entry;
* `ReleaseFetch.Files.copyExecutable_refused` — nothing is copied over a directory;
* `ReleaseFetch.Installer.install_eq` — an installation in three parts;
* `ReleaseFetch.Installer.extract_steps`, `ReleaseFetch.Installer.place_steps` — the steps of an
  asset that was placed;
* `ReleaseFetch.Installer.place_ok`, `ReleaseFetch.Installer.finish_ok` — what stands at the
  destination.
-/

import ReleaseFetch.Proofs.Install.Obtaining

set_option autoImplicit false

namespace ReleaseFetch

open Disk Session

/-- A file that is written into a directory has the name that it was to have, which is a name of an
entry. -/
theorem Disk.isEntryName_of_write {d e : Disk} (hd : d.Plain) {directory : Path} {name : String}
    (hname : '/' ∉ name.toList) (hdir : d.seen directory = some .directory) {b : List UInt8}
    (h : d.write (directory.child name) b = .ok e) : IsEntryName name := by
  obtain ⟨m, hopen, -, k, hlast, hk⟩ := write_ok hd h
  have hchild : directory.child name = ⟨directory.root,
      directory.names ++ if name = "" ∨ name = "." then [] else [name]⟩ := by
    rw [Path.child, Path.ofText_of_noSlash hname]
    rfl
  by_cases hn : name = "" ∨ name = "."
  · -- the directory itself cannot be written to
    rw [if_pos hn, List.append_nil] at hchild
    rw [hchild] at hopen hlast
    have hnames : directory.names ≠ [] := by
      intro hnil
      simp [hnil] at hlast
    rw [seen, if_neg hnames] at hdir
    exact absurd hdir hopen.vacant
  · rw [if_neg hn] at hchild
    rw [hchild] at hlast
    obtain rfl : name = k := by simpa using hlast
    obtain ⟨hempty, hdot⟩ := not_or.1 hn
    exact ⟨hname, hempty, hdot, hk.2⟩

/-- Nothing is copied over a directory: to a name that names one, nothing is copied at all. -/
theorem Files.copyExecutable_refused (source : Path) {directory : Path} {name : String}
    (hname : '/' ∉ name.toList) (hentry : ¬IsEntryName name) {w : World} (hw : w.disk.Plain)
    (hdir : w.disk.seen directory = some .directory) :
    ∃ f v, (copyExecutable source (directory.child name)).perform w = (.error f, v) ∧
      Edited (fun _ => False) w.disk v.disk := by
  have hmade := ensureDirectory_edited (directory.child name).parent hw
  unfold copyExecutable
  rw [perform_bind]
  rcases hensure : (ensureDirectory (directory.child name).parent).perform w with ⟨result, v⟩
  rw [hensure] at hmade
  cases result with
  | error f => exact ⟨f, v, rfl, hmade⟩
  | ok u =>
      simp only
      rw [perform_change]
      split
      · next e hcopy =>
        obtain ⟨-, b, -, hwrite⟩ := copyFile_ok hcopy
        exact absurd (isEntryName_of_write hmade.plain hname (hmade.toWithin.seen hdir) hwrite)
          hentry
      · next f _ => exact ⟨f, v, rfl, hmade⟩

namespace Installer

variable {i : Installer}

theorem noSlash_installedName (htool : '/' ∉ i.config.toolName.toList) :
    '/' ∉ i.installedName.toList := by
  unfold installedName
  split
  · simp [htool, windowsExtension]
  · exact htool

/-! ### The parts of an installation -/

/-- Places an asset that was obtained; one that cannot be placed is taken out of the cache. -/
def finish (i : Installer) (o : Order) (asset : Path) : Session Path := do
  log .info .installer s!"Extracting to {o.destination.text}"
  match ← attempt (i.place asset o.destination) with
  | .ok binary =>
    log .info .installer s!"Installed {i.config.toolName} to {binary.text}"
    return binary
  | .error f =>
    if !f.isInterrupt then
      log .info .installer "Deleting invalid download"
      let _ ← i.invalidate o.version o.target
    throw f

/-- An order is checked, its destination is made, and its asset is obtained and placed. -/
theorem install_eq (i : Installer) (o : Order) :
    i.install o = (do
      give (o.check.mapError .problem)
      Files.ensureDirectory o.destination
      let asset ← i.obtain o
      i.finish o asset) := rfl

theorem place_local (i : Installer) (asset directory : Path) : (i.place asset directory).Local := by
  refine .bind (.bind (Files.copyExecutable_local _ _) fun _ =>
    .bind (Files.findBinary_local _ _) fun binary => ?_) fun binary => ?_
  · cases binary with
    | none => exact .fail _
    | some p => exact .pure _
  · cases i.host.isWindows with
    | true => exact .pure _
    | false => exact .bind (Files.makeExecutable_local binary) fun _ => .pure _

theorem finish_local (i : Installer) (o : Order) (asset : Path) : (i.finish o asset).Local := by
  refine .bind (.log _ _ _) fun _ => .bind (.attempt (i.place_local asset o.destination))
    ?_
  intro result
  cases result with
  | ok binary => exact .bind (.log _ _ _) fun _ => .pure _
  | error f =>
      simp only
      cases f.isInterrupt with
      | true => exact .throw f
      | false => exact .bind (.log _ _ _) fun _ => .bind (Files.discard_local _) fun _ => .throw f

/-! ### Steps that were taken -/

theorem installedName_of_not_windows (hhost : i.host.isWindows = false) :
    i.installedName = i.config.toolName := by
  rw [installedName, hhost]
  rfl

/-- An asset that was extracted was copied, and then the binary was found. -/
theorem extract_steps {asset directory p : Path} {w w' : World}
    (hok : (i.extract asset directory).perform w = (.ok p, w')) :
    (Files.copyExecutable asset (directory.child i.installedName)).perform w = (.ok (), w') ∧
      w'.disk.executable? directory i.config.toolName = .ok (some p) := by
  obtain ⟨_, v, hcopy, hfind⟩ := bind_ok hok
  rw [perform_bind, Files.findBinary_eq, perform_look] at hfind
  rcases hfound : v.disk.executable? directory i.config.toolName with f | _ | found
  · rw [hfound] at hfind
    cases hfind
  · rw [hfound] at hfind
    cases hfind
  · rw [hfound] at hfind
    obtain ⟨heq, rfl⟩ := Prod.mk.inj hfind
    obtain rfl := Except.ok.inj heq
    exact ⟨hcopy, hfound⟩

/-- An asset that was placed was extracted, and off Windows everybody was let run it. -/
theorem place_steps {asset directory p : Path} {w w' : World}
    (hok : (i.place asset directory).perform w = (.ok p, w')) :
    ∃ v, (i.extract asset directory).perform w = (.ok p, v) ∧
      ((i.host.isWindows = true ∧ w' = v) ∨
        (i.host.isWindows = false ∧ (Files.makeExecutable p).perform v = (.ok (), w'))) := by
  obtain ⟨binary, v, hextract, hmode⟩ := bind_ok hok
  cases hhost : i.host.isWindows with
  | true =>
      rw [hhost] at hmode
      obtain ⟨heq, rfl⟩ := Prod.mk.inj hmode
      obtain rfl := Except.ok.inj heq
      exact ⟨_, hextract, .inl ⟨rfl, rfl⟩⟩
  | false =>
      rw [hhost] at hmode
      obtain ⟨_, u, hset, hdone⟩ := bind_ok hmode
      obtain ⟨heq, rfl⟩ := Prod.mk.inj hdone
      obtain rfl := Except.ok.inj heq
      exact ⟨v, hextract, .inr ⟨rfl, hset⟩⟩

/-! ### What stands at the destination -/

theorem perform_makeExecutable {p : Path} {b : List UInt8} {m : Nat} {w : World}
    (h : w.disk.Holds p b m) :
    (Files.makeExecutable p).perform w = (.ok (), { w with
      disk := w.disk.put (w.disk.locationOf p) (.file b Files.executableMode) }) := by
  rw [Files.makeExecutable, perform_change, h.setMode]

/-- What a copy that succeeded has read and written. -/
theorem copyExecutable_ok {source destination : Path} {w w' : World} (hw : w.disk.Plain)
    (hok : (Files.copyExecutable source destination).perform w = (.ok (), w')) :
    ∃ b k m, w.disk.get? (w.disk.locationOf source) = some (.file b k) ∧
      w'.disk.Holds destination b m ∧
      Edited (· = w.disk.locationOf destination) w.disk w'.disk ∧
      (w.disk.locationOf source ≠ w.disk.locationOf destination → w'.disk.Holds source b k) := by
  obtain ⟨_, v, hensure, hchange⟩ := bind_ok hok
  have hmade := Files.ensureDirectory_edited destination.parent hw
  rw [hensure] at hmade
  obtain ⟨e, hcopy, rfl⟩ := change_ok hchange
  obtain ⟨-, b, hread, hwrite⟩ := copyFile_ok hcopy
  obtain ⟨k, hsource⟩ := holds_read hmade.plain hread
  obtain ⟨⟨m, hholds⟩, hedit⟩ := holds_write hmade.plain hwrite
  have hfile := hsource.file
  rw [hmade.locationOf] at hedit hfile
  refine ⟨b, k, m, (hmade.file_iff id b k).1 hfile, hholds,
    (hmade.mono fun _ => False.elim).trans hedit, fun hne => hsource.edited hedit ?_⟩
  rw [hmade.locationOf]
  exact hne

/-- **A binary that was placed holds the bytes of its asset, and everybody may run it.** -/
theorem place_ok (htool : '/' ∉ i.config.toolName.toList) (hhost : i.host.isWindows = false)
    {asset directory p : Path} {w w' : World} (hw : w.disk.Plain)
    (hdir : w.disk.seen directory = some .directory)
    (hok : (i.place asset directory).perform w = (.ok p, w')) :
    IsEntryName i.config.toolName ∧ p = directory.child i.config.toolName ∧
      ∃ b k, w.disk.get? (w.disk.locationOf asset) = some (.file b k) ∧
        w'.disk.Holds p b Files.executableMode ∧
        Edited (· = w.disk.locationOf p) w.disk w'.disk ∧
        (w.disk.locationOf asset ≠ w.disk.locationOf p → w'.disk.Holds asset b k) := by
  obtain ⟨w₁, hextract, hmode⟩ := place_steps hok
  obtain ⟨hcopy, hfound⟩ := extract_steps hextract
  rw [installedName_of_not_windows hhost] at hcopy
  have hentry : IsEntryName i.config.toolName := by
    obtain ⟨_, v, hensure, hchange⟩ := bind_ok hcopy
    have hmade := Files.ensureDirectory_edited (directory.child i.config.toolName).parent hw
    rw [hensure] at hmade
    obtain ⟨e, hcopyFile, -⟩ := change_ok hchange
    obtain ⟨-, b, -, hwrite⟩ := copyFile_ok hcopyFile
    exact isEntryName_of_write hmade.plain htool (hmade.toWithin.seen hdir) hwrite
  obtain ⟨b, k, m, hfile, hholds, hedit, hasset⟩ := copyExecutable_ok hw hcopy
  -- the binary under the bare name is the one that is found
  obtain rfl := Option.some.inj (Except.ok.inj
    (hfound.symm.trans (executable?_of_exists hholds.exists?)))
  obtain ⟨-, hset⟩ := hmode.resolve_left fun hwindows => by simp [hhost] at hwindows
  rw [perform_makeExecutable hholds] at hset
  obtain ⟨hheld, hmoded⟩ := hholds.put b Files.executableMode
  obtain rfl := (Prod.mk.inj hset).2
  have hloc := hedit.locationOf
  rw [hloc] at hmoded
  refine ⟨hentry, rfl, b, k, hfile, hheld, hedit.trans (by rw [hloc]; exact hmoded),
    fun hne => (hasset hne).edited (by rw [hloc]; exact hmoded) ?_⟩
  rw [hloc]
  exact hne

/-- An installation that succeeded placed its asset. -/
theorem finish_ok {o : Order} {asset p : Path} {w w' : World}
    (hok : (i.finish o asset).perform w = (.ok p, w')) :
    ∃ v v' : World, v.disk = w.disk ∧ w'.disk = v'.disk ∧
      (i.place asset o.destination).perform v = (.ok p, v') := by
  obtain ⟨_, v, hlog, hattempt⟩ := bind_ok hok
  obtain ⟨result, v', hplace, hdone⟩ := bind_ok hattempt
  have hdisk : v.disk = w.disk := by
    rw [← (Prod.mk.inj hlog).2]
  have hplace' := attempt_ok hplace
  cases result with
  | ok binary =>
      obtain ⟨_, u, hnote, hreturn⟩ := bind_ok hdone
      obtain rfl := (Prod.mk.inj hnote).2
      obtain ⟨heq, rfl⟩ := Prod.mk.inj hreturn
      obtain rfl := Except.ok.inj heq
      exact ⟨v, v', hdisk, rfl, hplace'⟩
  | error f =>
      simp only at hdone
      split at hdone
      · obtain ⟨_, u, -, hdiscard⟩ := bind_ok hdone
        obtain ⟨_, u', -, hthrow⟩ := bind_ok hdiscard
        cases hthrow
      · cases hdone

end Installer

end ReleaseFetch
