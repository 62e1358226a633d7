/-
**The code of a command says how it ended.**

A command line that names a command ends with zero, one or 130.  It ends with one exactly if a
failure was reported on the standard error, whatever part of the journal is shown there, and with
zero after an installation only if the order was installed.  It ends with 130 if it was interrupted,
unless what is cleaned up before the interrupt is passed on fails itself: discarding an asset does,
if its path holds a null character or half of a pair that no byte stands for.

Main results:

* `ReleaseFetch.CommandLine.closed_status` — what the code says of a command that ended as it has
  to;
* `ReleaseFetch.CommandLine.run_status` — the codes of a command line;
* `ReleaseFetch.CommandLine.run_loses_interrupt` — an interrupt that is reported as a failure.
-/

import ReleaseFetch.Proofs.Command.Accounting

set_option autoImplicit false

namespace ReleaseFetch.CommandLine

open Disk Session

variable {s : Site} {h : Host}

/-! ### Closing -/

theorem closing_interrupt (verbose : Bool) : Closing.ofResult verbose (.error .interrupt) =
    ⟨130, [⟨.info, .commandLine, "Operation cancelled by user", false⟩], false⟩ := rfl

theorem closing_failure (verbose : Bool) {f : Failure} (hf : f.isInterrupt = false) :
    Closing.ofResult verbose (.error f) =
      ⟨1, [⟨.error, .commandLine, s!"Error: {f.message}", false⟩], verbose⟩ := by
  rw [Closing.ofResult, hf]
  rfl

/-- **How a command is closed**: the code says how it ended, and a failure that ended it is
reported. -/
theorem closed_status (general : GeneralOptions) {C : Prop} {w₀ start : World}
    {x : Except Failure Nat × World} (hx : Concluded C w₀ start x) (hfresh : start.journal = []) :
    ((closed general x).1.code = 0 ∨ (closed general x).1.code = 1 ∨
        (closed general x).1.code = 130) ∧
      ((closed general x).1.code = 130 ↔ w₀.Interrupted x.2 ∧ C) ∧
      ((closed general x).1.code = 1 ↔ Reported (closed general x).2.journal) := by
  obtain ⟨r, v⟩ := x
  obtain ⟨hinterrupted, hcodes, j, hj, hone, hreported⟩ := hx
  rw [hfresh, List.nil_append] at hj
  simp only at hinterrupted hcodes hj hone hreported
  rw [← hinterrupted]
  simp only [closed]
  rw [hj]
  cases r with
  | ok n =>
      simp only [Closing.ofResult, List.append_nil]
      rcases hcodes n rfl with rfl | rfl
      · refine ⟨.inl rfl, by simp, ⟨(fun h => by cases h), fun h => ?_⟩⟩
        exact absurd rfl (hreported h).1
      · exact ⟨.inr (.inl rfl), by simp, ⟨fun _ => hone rfl, fun _ => rfl⟩⟩
  | error f =>
      cases hf : f.isInterrupt with
      | true =>
          obtain rfl := eq_interrupt hf
          rw [closing_interrupt]
          refine ⟨.inr (.inr rfl), by simp, ⟨(fun h => by cases h), fun h => ?_⟩⟩
          rcases reported_append.1 h with hbefore | ⟨r, hr, hlevel⟩
          · exact absurd rfl (hreported hbefore).2
          · obtain rfl := List.mem_singleton.1 hr
            cases hlevel
      | false =>
          have hplain : f ≠ .interrupt := by
            rintro rfl
            cases hf
          rw [closing_failure _ hf]
          refine ⟨.inr (.inl rfl), by simp [hplain], ⟨fun _ => ?_, fun _ => rfl⟩⟩
          exact reported_append.2 (.inr ⟨_, List.mem_singleton_self _, rfl⟩)

/-- A failure that is reported is shown, however much of the journal is. -/
theorem shows_error (v : Verbosity) {r : Record} (hr : r.level = .error) : v.shows r = true := by
  rw [Verbosity.shows, hr]
  cases v <;> rfl

/-! ### The codes of a command line -/

/-- **The code of a command says how it ended.**  It is zero, one or 130; it is 130 exactly if an
interrupt was met and the path of the asset that the command installs, if any, can be given to the
system; it is one exactly if a failure is shown on the standard error; and it is zero after an
installation only if the order was installed. -/
theorem run_status {words : List String} {a : Arguments} {c : Command} {w w' : World} {out : Outcome}
    (hwords : Arguments.parse words = .ok a) (hcommand : a.command = some c)
    (hrun : run s h words w = (out, w')) :
    out.early = false ∧ (out.code = 0 ∨ out.code = 1 ∨ out.code = 130) ∧
      (out.code = 130 ↔ w.Interrupted w' ∧
        Nameable s h a.general { w with journal := [], printed := "" } c) ∧
      (out.code = 1 ↔ ∃ r ∈ w'.journal, r.level = .error ∧ a.general.verbosity.shows r) ∧
      (∃ details, out.err = a.general.verbosity.render w'.journal ++ details) ∧
      ∀ o, c = .install o → out.code = 0 → ∃ config target p j,
        ((context s h a.general).perform { w with journal := [], printed := "" }).1 = .ok config ∧
        chosenTarget (withArchitecture h o.arch) o.target = .ok target ∧
        ((Installer.ofConfig s config (withArchitecture h o.arch)).install
          (chosenOrder config o target (withArchitecture h o.arch).token?)).perform
            { w with journal := j, printed := "" } = (.ok p, w') := by
  have hclosed : closed a.general ((perform s h a.general c).perform
      { w with journal := [], printed := "" }) = (out, w') := by
    rw [← hrun, run, hwords]
    simp only [hcommand]
    exact (runCommand_eq s h a.general c w).symm
  have hstart : w.Undisturbed { w with journal := [], printed := "" } :=
    (World.Undisturbed.refl w).idle ⟨rfl, rfl, rfl, rfl⟩
  obtain ⟨hcodes, hinterrupted, hreported⟩ :=
    closed_status a.general (perform_concludes s h a.general c hstart) rfl
  rcases hperform : (perform s h a.general c).perform { w with journal := [], printed := "" } with
    ⟨result, v⟩
  rw [hperform] at hclosed hcodes hinterrupted hreported
  rw [hclosed] at hcodes hinterrupted hreported
  obtain ⟨hout, hw'⟩ := Prod.mk.inj hclosed
  refine ⟨by rw [← hout], hcodes, ?_, ?_, ⟨_, by rw [← hout, ← hw']⟩, ?_⟩
  · rw [hinterrupted, ← hw']
    exact and_congr_left fun _ => (World.interrupted_idle ⟨rfl, rfl, rfl, rfl⟩).symm
  · rw [hreported]
    exact exists_congr fun r => and_congr_right fun _ =>
      (and_iff_left_of_imp fun hr => shows_error _ hr).symm
  · rintro o rfl hzero
    cases result with
    | ok n =>
        obtain rfl : n = 0 := by
          rw [← hout] at hzero
          exact hzero
        obtain ⟨config, v', hcontext, target, p, j, htarget, hinstall⟩ := performInstall_ok hperform
        refine ⟨config, target, p, j, by rw [hcontext], htarget, ?_⟩
        rw [← hw']
        simp only [Closing.ofResult, List.append_nil]
        exact hinstall
    | error f =>
        rw [← hout] at hzero
        simp only [Closing.ofResult] at hzero
        split at hzero
        · cases hzero
        · cases hzero

/-- A disk with a configuration file. -/
def configuredDisk (text : String) : Disk :=
  ⟨[(["binfetch.yaml"], .file (text.toList.map fun c => c.toNat.toUInt8) 0o644)], []⟩

/-- An installation without options. -/
def plainInstall : InstallOptions := ⟨false, .absent, .absent, .absent, .absent⟩

/-- An installation that is interrupted while its asset is looked for. -/
theorem run_status_interrupted :
    let w := World.fresh (configuredDisk "version: \"v1\"\n") [.failure .interrupt]
    let ran := run plainSite ⟨"linux", "x86_64", []⟩ ["install"] w
    ran.1.code = 130 ∧ w.Interrupted ran.2 ∧
      (ran.1.code = 1 ↔ ∃ r ∈ ran.2.journal, r.level = .error ∧ Verbosity.normal.shows r) := by
  intro w ran
  have hwords : Arguments.parse ["install"] =
      .ok ⟨⟨false, false, .absent⟩, some (.install plainInstall)⟩ := by decide +kernel
  have hrun : run plainSite ⟨"linux", "x86_64", []⟩ ["install"] w = ran := rfl
  have hcode : (run plainSite ⟨"linux", "x86_64", []⟩ ["install"] w).1.code = 130 := by
    decide +kernel
  -- in the words of the statement, so that the run is not compared with itself
  rw [hrun] at hcode
  obtain ⟨-, -, hinterrupted, hreported, -⟩ := run_status hwords rfl (Prod.eta ran).symm
  exact ⟨hcode, (hinterrupted.1 hcode).1, hreported⟩

/-- A run that asked for the only answer, which is an interrupt, was interrupted. -/
theorem interrupted_of_asked {d : Disk} {w : World} (h : w.exchanges[0]?.isSome) :
    (World.fresh d [.failure .interrupt]).Interrupted w := by
  obtain ⟨x, hx⟩ := Option.isSome_iff_exists.1 h
  exact .inl ⟨0, x, .failure .interrupt, hx, rfl, rfl⟩

/-- **An interrupt is lost** where the path of the asset cannot be given to the system, which a
configuration file can bring about with a null character or with half of a pair: the asset is
discarded before the interrupt is passed on, and that fails. -/
theorem run_loses_interrupt :
    let start (text : String) := World.fresh (configuredDisk text) [.failure .interrupt]
    let ran (text : String) := run plainSite ⟨"linux", "x86_64", []⟩ ["install"] (start text)
    let loses (text : String) := (start text).Interrupted (ran text).2 ∧ (ran text).1.code = 1
    (∃ a o, Arguments.parse ["install"] = .ok a ∧ a.command = some (.install o)) ∧
      loses "version: \"v\\0\"\n" ∧ loses "version: \"v\\ud800\"\n" := by
  intro start ran loses
  have hloses (text : String) {x : Outcome × World} (hran : ran text = x)
      (hends : x.2.exchanges[0]?.isSome ∧ x.1.code = 1) : loses text := by
    rw [← hran] at hends
    exact ⟨interrupted_of_asked hends.1, hends.2⟩
  refine ⟨⟨⟨⟨false, false, .absent⟩, some (.install plainInstall)⟩, plainInstall, ?_, rfl⟩,
    hloses _ rfl ?_, hloses _ rfl ?_⟩
  · decide +kernel
  · decide +kernel
  · decide +kernel

end ReleaseFetch.CommandLine
