/-
**A binary that was installed is found.**

One command installs a binary, another prints where it is.  They work out the place on their own,
from the configuration that each of them loads: the first copies an asset there, looks for the
binary and sets its mode, the second asks whether something stands there that its owner may run.  An
installation into the directory of the configuration that succeeded has left a file there, with the
mode of an executable off Windows, so whoever loads the same configuration finds it.

Main definitions:

* `ReleaseFetch.Motion.noting` — nothing but the journal changes;
* `ReleaseFetch.CommandLine.loaded` — the configuration as a command loads it.

Main results:

* `ReleaseFetch.CommandLine.context_notes` — the configuration of a command is only read;
* `ReleaseFetch.CommandLine.performInstall_ok` — what a command that installed has done;
* `ReleaseFetch.CommandLine.performPath_found` — a command that finds the binary;
* `ReleaseFetch.CommandLine.path_after_install` — an installation, then its path.
-/

import ReleaseFetch.Proofs.Credential.Interference
import ReleaseFetch.Proofs.Install.Whereabouts
import ReleaseFetch.Proofs.Transfer.Deciding

set_option autoImplicit false

namespace ReleaseFetch

open Disk Session

/-! ### The configuration is only read -/

/-- Nothing but the journal changes. -/
def Motion.noting : Motion where
  rel w w' := w' = { w with journal := w'.journal }
  refl _ := rfl
  trans h h' := by
    rw [h] at h'
    exact h'
  journal _ _ := rfl

namespace Settings

theorem file?_notes (file : Option Path) : (file? file).Moves Motion.noting := by
  cases file with
  | some p =>
      refine .bind (.look _) ?_
      intro found
      split
      · exact .pure _
      · exact .fail _
  | none => exact .bind (.look _) fun p => .bind (.look _) fun found => .pure _

theorem entriesOf_notes (file : Option Path) : (entriesOf file).Moves Motion.noting := by
  cases file with
  | none => exact .pure _
  | some p =>
      refine .bind (.log _ _ _) fun _ => .bind (.attempt (.look _)) ?_
      intro bytes
      cases bytes with
      | ok bytes => exact .give _
      | error f =>
          simp only
          split
          · exact .fail _
          · exact .throw f

theorem noteOverrides_yields (active : List (String × Key × String)) :
    (noteOverrides active).Yields (.ok ()) := by
  induction active with
  | nil => exact Yields.give (.ok ())
  | cons x rest ih => exact (Yields.log _ _ _).bind fun _ => ih

theorem noteOverrides_quiet (active : List (String × Key × String)) :
    (noteOverrides active).Quiet :=
  (noteOverrides_yields active).quiet

theorem load_notes (s : Site) (h : Host) (file : Option Path) :
    (load s h file).Moves Motion.noting :=
  .bind (file?_notes file) fun p => .bind (entriesOf_notes p) fun _ =>
    .bind (noteOverrides_quiet _).moves fun _ => .give _

end Settings

namespace CommandLine

variable {s : Site} {h : Host} {general : GeneralOptions} {w w' u : World}

/-- The configuration as a command loads it. -/
def loaded (s : Site) (h : Host) (o : GeneralOptions) : Session Config := do
  let file ← give (configFile o.config)
  Settings.load s h file

/-- A configuration that is loaded can be used if it can be written, and is noted then. -/
def usable (c : Config) : Session Config := do
  if !c.isWritable then throw (.badValue Numeral.unwritableText)
  log .debug .context s!"Configuration: {c.shown}"
  return c

theorem context_eq (s : Site) (h : Host) (o : GeneralOptions) :
    context s h o = (do usable (← loaded s h o)) := by
  rw [loaded, bind_assoc]
  rfl

theorem usable_quiet (c : Config) : (usable c).Quiet := by
  have hnote : (do
      log .debug .context s!"Configuration: {c.shown}"
      return c : Session Config).Quiet := .bind (.log _ _ _) fun _ => .pure _
  unfold usable
  split
  · exact .bind (.throw _) fun _ => hnote
  · exact hnote

theorem usable_eq {c c' : Config} (hok : (usable c).perform w = (.ok c', w')) : c' = c := by
  unfold usable at hok
  split at hok
  · cases hok
  · obtain ⟨_, v, -, hpure⟩ := bind_ok hok
    exact (Except.ok.inj (Prod.mk.inj hpure).1).symm

theorem loaded_notes (s : Site) (h : Host) (o : GeneralOptions) :
    (loaded s h o).Moves Motion.noting :=
  .bind (.give _) fun file => Settings.load_notes s h file

/-- **The configuration of a command is only read.** -/
theorem context_notes (s : Site) (h : Host) (o : GeneralOptions) :
    (context s h o).Moves Motion.noting := by
  rw [context_eq]
  exact .bind (loaded_notes s h o) fun c => (usable_quiet c).moves

/-- The configuration of a command is the one that was loaded. -/
theorem context_ok {c : Config} (hok : (context s h general).perform w = (.ok c, w')) :
    ((loaded s h general).perform w).1 = .ok c ∧ ∀ v, ∃ j,
      (usable c).perform v = (.ok c, { v with journal := v.journal ++ j }) := by
  rw [context_eq] at hok
  obtain ⟨c', v, hloaded, husable⟩ := bind_ok hok
  obtain rfl := usable_eq husable
  rw [hloaded]
  refine ⟨rfl, fun v' => ?_⟩
  obtain ⟨r, j, hr⟩ := usable_quiet c
  have hresult : r = .ok c := by
    rw [hr] at husable
    exact (Prod.mk.inj husable).1
  exact ⟨j, by rw [hr, hresult]⟩

/-- Where the same configuration is loaded, a command runs with it as well. -/
theorem context_again {c : Config} {general' : GeneralOptions}
    (hok : (context s h general).perform w = (.ok c, w'))
    (hconfig : general'.config = general.config)
    (hsame : ((loaded s h general).perform u).1 = ((loaded s h general).perform w).1) :
    ∃ j, (context s h general').perform u = (.ok c, { u with journal := j }) := by
  obtain ⟨hloaded, husable⟩ := context_ok hok
  have hagain : loaded s h general' = loaded s h general := by rw [loaded, loaded, hconfig]
  have hnotes := loaded_notes s h general u
  rcases hperform : (loaded s h general).perform u with ⟨r, v⟩
  rw [hperform] at hsame hnotes
  obtain rfl : r = .ok c := hsame.trans hloaded
  obtain ⟨j, hj⟩ := husable v
  refine ⟨v.journal ++ j, ?_⟩
  rw [context_eq, hagain, perform_bind, hperform]
  simp only
  rw [hj]
  have hv : v = { u with journal := v.journal } := hnotes
  rw [hv]

/-! ### The two commands -/

/-- The architecture of a host is no part of its system. -/
theorem isWindows_withArchitecture (h : Host) (arch : Value) :
    (withArchitecture h arch).isWindows = h.isWindows := by
  unfold withArchitecture
  split <;> rfl

theorem binaryPath_withArchitecture (c : Config) (h : Host) (arch : Value) :
    c.binaryPath (withArchitecture h arch) = c.binaryPath h := by
  rw [Config.binaryPath, Config.binaryPath, Host.extension, Host.extension,
    isWindows_withArchitecture]

/-- **A command that installed** loaded a configuration, and an order of its options was installed
with it.  Before that, nothing but the journal changed, and after it nothing at all. -/
theorem performInstall_ok {o : InstallOptions}
    (hok : (performInstall s h general o).perform w = (.ok 0, w')) :
    ∃ c v, (context s h general).perform w = (.ok c, v) ∧ ∃ target p j,
      chosenTarget (withArchitecture h o.arch) o.target = .ok target ∧
      ((Installer.ofConfig s c (withArchitecture h o.arch)).install
        (chosenOrder c o target (withArchitecture h o.arch).token?)).perform
          { w with journal := j } = (.ok p, w') := by
  rw [performInstall_eq] at hok
  obtain ⟨c, v, hcontext, hnoted⟩ := bind_ok hok
  refine ⟨c, v, hcontext, ?_⟩
  obtain ⟨_, v', hforce, hattempted⟩ := bind_ok hnoted
  obtain ⟨result, v₂, hattempt, hreport⟩ := bind_ok hattempted
  have hinstall := attempt_ok hattempt
  cases result with
  | ok _ =>
      rw [installChosen_eq] at hinstall
      obtain ⟨target, u₁, htarget, hnoted⟩ := bind_ok hinstall
      obtain ⟨_, u₂, hnote, hordered⟩ := bind_ok hnoted
      obtain ⟨p, u₃, horder, hdone⟩ := bind_ok hordered
      obtain ⟨hchosen, rfl⟩ := give_ok htarget
      obtain rfl : u₃ = v₂ := (Prod.mk.inj hdone).2
      obtain rfl : u₃ = w' := (Prod.mk.inj hreport).2
      -- up to the order the steps only noted what they did
      have hv := context_notes s h general w
      have hv' := (noteForce_quiet o.force).moves (T := Motion.noting) v
      have hu₂ := (noteTarget_quiet target).moves (T := Motion.noting) u₁
      rw [hcontext] at hv
      rw [hforce] at hv'
      rw [hnote] at hu₂
      have hu : u₂ = { w with journal := u₂.journal } :=
        Motion.noting.trans (Motion.noting.trans hv hv') hu₂
      rw [hu] at horder
      exact ⟨target, p, u₂.journal, hchosen, horder⟩
  | error f =>
      -- a problem that is reported ends the command with another code
      unfold report at hreport
      split at hreport
      · next heq => cases heq
      · obtain ⟨_, u₁, -, hreport⟩ := bind_ok hreport
        split at hreport
        · obtain ⟨_, u₂, -, hreport⟩ := bind_ok hreport
          cases hreport
        · cases hreport
      · cases hreport

/-- **A command that finds the binary** prints its path and does nothing else. -/
theorem performPath_found {c : Config} {j : List Record} {l : Location} {b : List UInt8} {m : Nat}
    (hcontext : (context s h general).perform u = (.ok c, { u with journal := j }))
    (hfile : u.disk.status (c.binaryPath h) = .ok ⟨l, some (.file b m)⟩)
    (hmode : h.isWindows = false → (Entry.file b m).isExecutable = true) :
    (performPath s h general).perform u =
      (.ok 0, { u with
        journal := j, printed := u.printed ++ (c.binaryPath h).text ++ "\n" }) := by
  have hexists : u.disk.exists? (c.binaryPath h) = .ok true :=
    exists?_iff.2 ⟨_, (status_eq_ok_iff.1 hfile).1, by simp⟩
  have hexecutable (hhost : h.isWindows = false) :
      (Files.isExecutable (c.binaryPath h)).perform { u with journal := j } =
        (.ok true, { u with journal := j }) := by
    rw [Files.isExecutable, perform_bind, perform_attempt, perform_look]
    simp only [hfile]
    rw [perform_pure, Option.map_some, hmode hhost, Option.getD_some]
  rw [performPath, perform_bind, hcontext]
  simp only
  rw [perform_bind, perform_look]
  simp only [hexists, Bool.not_true, Bool.false_eq_true, if_false]
  cases hhost : h.isWindows with
  | true => rfl
  | false =>
      simp only [Bool.false_eq_true, if_false]
      rw [perform_bind, hexecutable hhost]
      rfl

/-- **An installation, then its path.**  After a command that installed into the directory of its
configuration, a command in the same environment that loads the same configuration prints where the
binary is and does nothing else; off Windows the binary has the mode of an executable. -/
theorem path_after_install {o : InstallOptions} {general' : GeneralOptions}
    (hbinDir : o.binDir = .absent)
    (hok : (performInstall s h general o).perform w = (.ok 0, w'))
    (hdisk : u.disk = w'.disk) (hconfig : general'.config = general.config)
    (hsame : ((loaded s h general).perform u).1 = ((loaded s h general).perform w).1) :
    ∃ c j, ((loaded s h general).perform w).1 = .ok c ∧
      (performPath s h general').perform u =
        (.ok 0, { u with
          journal := j, printed := u.printed ++ (c.binaryPath h).text ++ "\n" }) ∧
      (h.isWindows = false → ∃ l b,
        u.disk.status (c.binaryPath h) = .ok ⟨l, some (.file b Files.executableMode)⟩) := by
  obtain ⟨c, v, hcontext, target, p, i, -, hinstall⟩ := performInstall_ok hok
  obtain ⟨j, hagain⟩ := context_again hcontext hconfig hsame
  -- what the installation placed is what the configuration names
  obtain ⟨-, u₁, u₂, u₃, u₄, -, -, hplace, -, hw'⟩ := Installer.install_ok hinstall
  obtain ⟨x, l, b, k, m, hplaced⟩ := Installer.place_placed hplace
  have hpath : (chosenOrder c o target (withArchitecture h o.arch).token?).destination.child
      (Installer.ofConfig s c (withArchitecture h o.arch)).installedName = c.binaryPath h := by
    rw [chosenOrder, hbinDir, ← binaryPath_withArchitecture c h o.arch]
    exact (Installer.binaryPath_eq (.ofConfig s c (withArchitecture h o.arch))).symm
  have htarget := hplaced.copied.target
  rw [hpath, ← hw', ← hdisk] at htarget
  have hfile := status_eq_ok_iff.2 ⟨htarget, by simp⟩
  have hmode (hhost : h.isWindows = false) : m = Files.executableMode :=
    (hplaced.mode ((isWindows_withArchitecture h o.arch).trans hhost)).2
  refine ⟨c, j, (context_ok hcontext).1, performPath_found hagain hfile fun hhost => ?_,
    fun hhost => ⟨l, b, hmode hhost ▸ hfile⟩⟩
  rw [hmode hhost]
  rfl

/-- A site without users. -/
def plainSite : Site := ⟨fun _ => none, ⟨.here, ["tmp"]⟩, ⟨.here, ["package"]⟩⟩

/-- The asset of the default release in the cache, without the mode of an executable. -/
def cachedRelease : Disk :=
  ⟨[(["tmp"], .directory), (["aidbox-cli-cache-0.4.3", "tmp"], .directory),
    (["aidbox-cli-v0.4.3-linux-x86_64", "aidbox-cli-cache-0.4.3", "tmp"], .file [1] 0o644)], []⟩

/-- An installation from the cache, then its path. -/
theorem path_after_install_cached :
    let w := World.fresh cachedRelease []
    let h : Host := ⟨"linux", "x86_64", []⟩
    let installed := (performInstall plainSite h ⟨false, true, .absent⟩
      ⟨false, .absent, .absent, .absent, .absent⟩).perform w
    installed.1 = .ok 0 ∧ ∃ c j,
      ((loaded plainSite h ⟨false, true, .absent⟩).perform w).1 = .ok c ∧
      (c.binaryPath h).text = "package/bin/aidbox-cli" ∧
      (performPath plainSite h ⟨true, false, .absent⟩).perform installed.2 =
        (.ok 0, { installed.2 with
          journal := j, printed := installed.2.printed ++ (c.binaryPath h).text ++ "\n" }) ∧
      ∃ l b, installed.2.disk.status (c.binaryPath h) =
        .ok ⟨l, some (.file b Files.executableMode)⟩ := by
  intro w h installed
  have hok : installed.1 = .ok 0 := by decide +kernel
  have hsame : ((loaded plainSite h ⟨false, true, .absent⟩).perform installed.2).1 =
      ((loaded plainSite h ⟨false, true, .absent⟩).perform w).1 := by decide +kernel
  have hpair (x : Except Failure Nat × World) (hx : x.1 = .ok 0) : x = (.ok 0, x.2) :=
    Prod.ext hx rfl
  have hconfig : GeneralOptions.config ⟨true, false, .absent⟩ =
      GeneralOptions.config ⟨false, true, .absent⟩ := rfl
  obtain ⟨c, j, hc, hpath, hmode⟩ := path_after_install rfl (hpair installed hok) rfl hconfig hsame
  have htext : (((loaded plainSite h ⟨false, true, .absent⟩).perform w).1.map
      fun c => (c.binaryPath h).text) = .ok "package/bin/aidbox-cli" := by decide +kernel
  rw [hc] at htext
  exact ⟨hok, c, j, hc, Except.ok.inj htext, hpath, hmode (by decide +kernel)⟩

end CommandLine

end ReleaseFetch
