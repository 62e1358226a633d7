/-
**A command gives account of how it ends.**

The configuration of a command is put together without meeting an interrupt, and so are the commands
that do not install.  A command ends with code one exactly where it has reported a failure itself;
what it does not report, it is ended by.

Main definitions:

* `ReleaseFetch.CommandLine.Concluded`, `ReleaseFetch.Session.Concludes` — how a command has to end;
* `ReleaseFetch.CommandLine.assetPath?` — the path of the asset that a command installs.

Main results:

* `ReleaseFetch.Settings.ofEntries_unbroken`, `ReleaseFetch.CommandLine.context_steady` — the
  configuration of a command;
* `ReleaseFetch.CommandLine.performInstall_concludes`, `ReleaseFetch.CommandLine.perform_concludes`
  — every command ends as it has to.
-/

import ReleaseFetch.Proofs.Command.Finding
import ReleaseFetch.Proofs.Install.Accounting
import ReleaseFetch.Proofs.Settings.Trouble

set_option autoImplicit false

namespace ReleaseFetch

open Disk Session

/-! ### Settings -/

/-- A refusal is no interrupt, so a decision is none if nothing that gets out of it is. -/
theorem Leaks.unbroken {α : Type} {r : Except Failure α} {T : Failure → Prop} (hr : Leaks r T)
    (hT : ∀ f, T f → f.isInterrupt = false) : Unbroken r := by
  intro f hf
  by_cases hrefusal : f.isRefusal = false
  · exact hT f ((hr f).1 ⟨hf, hrefusal⟩)
  · cases f with
    | interrupt => exact absurd rfl hrefusal
    | _ => rfl

theorem Rule.Trouble.not_interrupt {home? : String → Option String} {rule : Rule} {v : Yaml.Value}
    {f : Failure} (h : Trouble home? rule v f) : f.isInterrupt = false := by
  cases h <;> rfl

theorem ConfigFile.Trouble.not_interrupt {bytes : List UInt8} {f : Failure} (h : Trouble bytes f) :
    f.isInterrupt = false := by
  cases h <;> rfl

namespace Settings

theorem Unsettled.not_interrupt {s : Site} {settings : List (Key × Yaml.Value)} {f : Failure}
    (h : Unsettled s settings f) : f.isInterrupt = false := by
  induction h with
  | here htrouble => exact htrouble.not_interrupt
  | later _ _ ih => exact ih

/-- **A configuration that is refused is no interrupt.** -/
theorem ofEntries_unbroken (s : Site) (entries : ConfigFile.Entries) :
    Unbroken (ofEntries s entries) := by
  refine (ofEntries_leaks entries).unbroken fun f h => ?_
  cases h with
  | key => rfl
  | value _ hvalue => exact hvalue.not_interrupt

theorem settingsOfBytes_unbroken (name : String) (bytes : List UInt8) :
    Unbroken (ConfigFile.settingsOfBytes name bytes) :=
  (ConfigFile.settingsOfBytes_leaks name bytes).unbroken fun _ h => h.not_interrupt

/-! ### The configuration of a command -/

theorem file?_steady (file : Option Path) : (file? file).Steady := by
  have hexists (p : Path) : (look (·.exists? p)).Steady := .look fun d => d.exists?_unbroken p
  cases file with
  | some p =>
      refine .bind (hexists p) ?_
      intro found
      split
      · exact .pure _
      · exact .fail _
  | none =>
      exact .bind (.look workingPath_unbroken) fun p => .bind (hexists _) fun found => .pure _

theorem entriesOf_steady (file : Option Path) : (entriesOf file).Steady := by
  cases file with
  | none => exact .pure _
  | some p =>
      refine .bind (.log (by decide) _ _) fun _ => .handle (.look fun d => d.read_unbroken _)
        (fun bytes => .give (settingsOfBytes_unbroken _ bytes)) ?_
      intro f hf
      simp only
      split
      · exact .fail _
      · exact .throw hf

theorem noteOverrides_steady (active : List (String × Key × String)) :
    (noteOverrides active).Steady := by
  induction active with
  | nil => exact .pure _
  | cons x rest ih => exact .bind (.log (by decide) _ _) fun _ => ih

theorem load_steady (s : Site) (h : Host) (file : Option Path) : (load s h file).Steady :=
  .bind (file?_steady file) fun p => .bind (entriesOf_steady p) fun _ =>
    .bind (noteOverrides_steady _) fun _ => .give (ofEntries_unbroken s _)

end Settings

/-! ### How a command has to end -/

section Concluding

variable {α : Type} {C : Prop} {w₀ w : World}

/-- **How a command has to end.**  It ends with an interrupt if one was met and the condition holds;
it ends with code one if it has reported a failure, and with code zero if not; and a failure that is
reported ends it. -/
structure CommandLine.Concluded (C : Prop) (w₀ w : World) (p : Except Failure Nat × World) :
    Prop where
  interrupted : p.1 = .error .interrupt ↔ w₀.Interrupted p.2 ∧ C
  codes : ∀ n, p.1 = .ok n → n = 0 ∨ n = 1
  journal : ∃ j, p.2.journal = w.journal ++ j ∧
    (p.1 = .ok 1 → Reported j) ∧ (Reported j → p.1 ≠ .ok 0 ∧ p.1 ≠ .error .interrupt)

/-- The command ends as it has to, in every run that was not interrupted before. -/
def Session.Concludes (C : Prop) (x : Session Nat) : Prop :=
  ∀ w₀ w : World, w₀.Undisturbed w → CommandLine.Concluded C w₀ w (x.perform w)

namespace CommandLine.Concluded

/-- A failure that gives account ends a command as it has to. -/
theorem of_accounted {f : Failure} {v : World}
    (h : Accounted C w₀ w ((.error f, v) : Except Failure α × World)) :
    Concluded C w₀ w (.error f, v) := by
  obtain ⟨-, -, hinterrupted, j, hj, hreport⟩ := h
  refine ⟨?_, (fun n h => by cases h), j, hj, (fun h => by cases h), fun hreported => ?_⟩
  · simpa using hinterrupted
  · obtain ⟨g, hg, hplain⟩ := hreport hreported
    obtain rfl := Except.error.inj hg
    refine ⟨(fun h => by cases h), fun h => ?_⟩
    rw [Except.error.inj h] at hplain
    cases hplain

/-- What a command does before its end. -/
theorem bind {x : Session α} {k : α → Session Nat} (hx : Accounted C w₀ w (x.perform w))
    (hk : ∀ a v, x.perform w = (.ok a, v) → w₀.Undisturbed v →
      Concluded C w₀ v ((k a).perform v)) : Concluded C w₀ w ((x >>= k).perform w) := by
  rw [perform_bind]
  rcases hperform : x.perform w with ⟨r, v⟩
  rw [hperform] at hx
  cases r with
  | error f => exact of_accounted hx
  | ok a =>
      obtain ⟨hsince, hclear, hinterrupted, j, hj, hreport⟩ := hx
      obtain ⟨hinterrupted', hcodes, j', hj', hone, hreport'⟩ :=
        hk a v hperform ⟨hsince, hclear a rfl⟩
      refine ⟨hinterrupted', hcodes, j ++ j', ?_, fun h => reported_append.2 (.inr (hone h)), ?_⟩
      · rw [hj', hj, List.append_assoc]
      · intro hreported
        rcases reported_append.1 hreported with hfirst | hsecond
        · obtain ⟨f, hf, -⟩ := hreport hfirst
          cases hf
        · exact hreport' hsecond

/-- A command that ends with a code in a world without an interrupt. -/
theorem of_code {n : Nat} {v : World} (hv : w₀.Undisturbed v) {j : List Record}
    (hj : v.journal = w.journal ++ j) (hn : n = 0 ∧ ¬Reported j ∨ n = 1 ∧ Reported j) :
    Concluded C w₀ w (.ok n, v) := by
  refine ⟨⟨(fun h => by cases h), fun h => absurd h.1 hv.clear⟩, fun m hm => ?_, j, hj, fun h => ?_,
    fun hreported => ⟨fun h => ?_, fun h => by cases h⟩⟩
  · obtain rfl := Except.ok.inj hm
    exact hn.imp And.left And.left
  · obtain rfl := Except.ok.inj h
    rcases hn with ⟨hzero, -⟩ | ⟨-, hreported⟩
    · cases hzero
    · exact hreported
  · obtain rfl := Except.ok.inj h
    rcases hn with ⟨-, hsilent⟩ | ⟨hone, -⟩
    · exact hsilent hreported
    · cases hone

end CommandLine.Concluded

namespace Session.Concludes

/-- What a command does before its end. -/
theorem after {x : Session α} {k : α → Session Nat} (hx : Steady x) (hk : ∀ a, Concludes C (k a)) :
    Concludes C (x >>= k) :=
  fun w₀ _ hw => .bind (.of_steady hx hw) fun a v _ hv => hk a w₀ v hv

/-- A command that has nothing to report. -/
theorem zero : Concludes C (pure 0 : Session Nat) :=
  fun _ w hw => .of_code hw (j := []) (List.append_nil w.journal).symm (.inl ⟨rfl, not_reported_nil⟩)

/-- A command that reports a failure. -/
theorem one (s : Source) (text : String) :
    Concludes C (do log .error s text; return 1 : Session Nat) := by
  intro w₀ w hw
  refine .of_code (hw.idle (Motion.idle.journal w _)) (j := [⟨.error, s, text, false⟩]) rfl
    (.inr ⟨rfl, ?_⟩)
  exact ⟨_, List.mem_singleton_self _, rfl⟩

end Session.Concludes

end Concluding

namespace CommandLine

/-! ### Commands that do not install -/

theorem configFile_unbroken (v : Value) : Unbroken (configFile v) := by
  cases v with
  | absent => exact .ok _
  | dropped => exact .error rfl
  | text s => exact .ok _

/-- **The configuration of a command** is put together without an interrupt. -/
theorem context_steady (s : Site) (h : Host) (o : GeneralOptions) : (context s h o).Steady := by
  refine .bind (.give (configFile_unbroken o.config)) fun file =>
    .bind (Settings.load_steady s h file) ?_
  intro config
  have hnote : (do
      log .debug .context s!"Configuration: {config.shown}"
      return config : Session Config).Steady := .bind (.log (by decide) _ _) fun _ => .pure _
  split
  · exact .bind (.throw rfl) fun _ => hnote
  · exact hnote

theorem performTarget_concludes {C : Prop} (h : Host) (o : TargetOptions) :
    (performTarget h o).Concludes C := by
  unfold performTarget
  have hall (targets : List String) : (targets.forM print : Session PUnit).Steady := by
    induction targets with
    | nil => exact .pure _
    | cons target rest ih => exact .bind (.print _) fun _ => ih
  split
  · exact .after (hall _) fun _ => .zero
  · split
    · exact .after (.print _) fun _ => .zero
    · exact .one _ _

theorem isExecutable_steady (p : Path) : (Files.isExecutable p).Steady := by
  refine .handle (.look fun d => d.status_unbroken _) (fun place => .pure _) ?_
  intro f hf
  simp only
  split
  · exact .pure _
  · exact .throw hf

theorem performPath_concludes {C : Prop} (s : Site) (h : Host) (o : GeneralOptions) :
    (performPath s h o).Concludes C := by
  refine .after (context_steady s h o) fun c =>
    .after (.look fun d => d.ask_unbroken _ _) ?_
  intro found
  split
  · exact .one _ _
  · have hruns (runs : Bool) : (reportPath (c.binaryPath h) runs).Concludes C := by
      unfold reportPath
      split
      · exact .one _ _
      · exact .after (.print _) fun _ => .zero
    simp only
    split
    · exact .after (.pure _) hruns
    · exact .after (isExecutable_steady _) hruns

theorem removeTree_steady (p : Path) (under : Option Path) : (Files.removeTree p under).Steady := by
  have hrequire (q : Path) : (Files.requireUnder q under).Steady := by
    unfold Files.requireUnder
    split
    · exact .pure _
    · refine .bind (.look fun d => d.resolve_unbroken _) ?_
      intro limit
      split
      · exact .throw rfl
      · exact .pure _
  refine .bind (.look fun d => d.resolve_unbroken p) fun q => .bind (hrequire q) fun _ =>
    .bind (.look fun d => d.ask_unbroken _ _) ?_
  intro found
  split
  · refine .bind (.look fun d => d.ask_unbroken _ _) ?_
    intro isDirectory
    split
    · exact .change fun d => d.removeDirectory_unbroken _
    · exact .fail _
  · exact .pure _

theorem performClean_concludes {C : Prop} (s : Site) (h : Host) (o : GeneralOptions) :
    (performClean s h o).Concludes C := by
  have hclear (p : Path) : (Cache.clear p).Steady := by
    refine .bind (.look fun d => d.ask_unbroken _ _) ?_
    intro found
    split
    · exact .bind (removeTree_steady p _) fun _ => .bind (.log (by decide) _ _) fun _ => .pure _
    · exact .bind (.log (by decide) _ _) fun _ => .pure _
  refine .after (context_steady s h o) fun c => .after (hclear _) ?_
  intro cleared
  split
  · exact .after (.log (by decide) _ _) fun _ => .zero
  · exact .zero

/-! ### Installations -/

/-- The path of the asset that a command installs, where its configuration and its target can be
told. -/
def assetPath? (s : Site) (h : Host) (general : GeneralOptions) (w : World) :
    Command → Option Path
  | .install o =>
    match ((loaded s h general).perform w).1, chosenTarget (withArchitecture h o.arch) o.target with
    | .ok c, .ok target =>
      some ((Installer.ofConfig s c (withArchitecture h o.arch)).assetPath
        (o.release.nonEmpty?.getD c.version) target)
    | _, _ => none
  | _ => none

theorem noteTarget_steady (target : String) : (noteTarget target).Steady := by
  unfold noteTarget
  split
  · exact .log (by decide) _ _
  · exact .pure _

theorem noteForce_steady (force : Bool) : (noteForce force).Steady := by
  cases force with
  | true => exact .log (by decide) _ _
  | false => exact .pure _

theorem chosenTarget_unbroken (h : Host) (v : Value) : Unbroken (chosenTarget h v) := by
  unfold chosenTarget
  split
  · exact .ok _
  · exact .mapError _ fun _ => rfl

/-- An installation gives account, whatever its target is. -/
theorem installChosen_accounts (s : Site) (h : Host) (c : Config) (o : InstallOptions) {C : Prop}
    (hC : ∀ target, chosenTarget h o.target = .ok target →
      ((Installer.ofConfig s c h).Nameable (chosenOrder c o target h.token?) ↔ C)) :
    (installChosen s h c o).Accounts C := by
  rw [installChosen_eq]
  refine .give_bind (chosenTarget_unbroken h o.target) fun target htarget =>
    .after (noteTarget_steady target) fun _ => ?_
  have hinstall := (Installer.ofConfig s c h).install_accounts (chosenOrder c o target h.token?)
  rw [propext (hC target htarget)] at hinstall
  exact .bind hinstall fun _ => .of_steady (.pure _)

/-- A problem of an installation is reported, and any other failure ends the command. -/
theorem report_error (verbose : Bool) (c : Config) (f : Failure) :
    ((∃ p, f = .problem p) ∧ ∀ v, ∃ j, Reported j ∧
        (report verbose c (.error f)).perform v = (.ok 1, { v with journal := v.journal ++ j })) ∨
      report verbose c (.error f) = throw f := by
  cases f with
  | problem p =>
      refine .inl ⟨⟨p, rfl⟩, fun v => ?_⟩
      cases verbose with
      | false => exact ⟨_, ⟨_, List.mem_singleton_self _, rfl⟩, rfl⟩
      | true =>
          refine ⟨[⟨.error, .installCommand, s!"Downloading {c.toolName} failed: {p.message}", false⟩,
            ⟨.error, .installCommand, "Details", true⟩], ⟨_, List.mem_cons_self, rfl⟩, ?_⟩
          rw [List.append_cons]
          rfl
  | _ => exact .inr rfl

/-- An installation whose problem is reported ends as it has to. -/
theorem report_concludes {C : Prop} {x : Session Unit} (hx : x.Accounts C) (verbose : Bool)
    (c : Config) : (do report verbose c (← attempt x) : Session Nat).Concludes C := by
  intro w₀ w hw
  rw [perform_bind, perform_attempt]
  have hperformed := hx w₀ w hw
  rcases hperform : x.perform w with ⟨r, v⟩
  rw [hperform] at hperformed
  simp only
  cases r with
  | ok u =>
      obtain ⟨hsince, hclear, -, j, hj, hreport⟩ := hperformed
      refine .of_code ⟨hsince, hclear _ rfl⟩ hj (.inl ⟨rfl, fun hreported => ?_⟩)
      obtain ⟨f, hf, -⟩ := hreport hreported
      cases hf
  | error f =>
      rcases report_error verbose c f with ⟨⟨p, rfl⟩, hproblem⟩ | hthrow
      · -- the report is of no interrupt, so none was passed on
        obtain ⟨-, -, hinterrupted, j, hj, -⟩ := hperformed
        obtain ⟨j', hreported, hperform'⟩ := hproblem v
        rw [hperform']
        have hidle : Motion.idle.rel v { v with journal := v.journal ++ j' } :=
          Motion.idle.journal v _
        refine ⟨?_, fun n hn => .inr (Except.ok.inj hn).symm, j ++ j', ?_,
          fun _ => reported_append.2 (.inr hreported), fun _ => ⟨by simp, by simp⟩⟩
        · rw [World.interrupted_idle hidle, ← hinterrupted]
          simp
        · rw [hj, List.append_assoc]
      · rw [hthrow]
        exact .of_accounted hperformed

/-- The path of the asset that a command installs can be given to the system, if it can be told.  A
half that a setting could not be given with is held as NUL, so both keep a path from being so. -/
def Nameable (s : Site) (h : Host) (general : GeneralOptions) (w : World) (c : Command) : Prop :=
  ∀ p, assetPath? s h general w c = some p → hasNul p = false

/-- **A command that installs ends as it has to.** -/
theorem performInstall_concludes (s : Site) (h : Host) (general : GeneralOptions)
    (o : InstallOptions) {w₀ w : World} (hw : w₀.Undisturbed w) :
    Concluded (Nameable s h general w (.install o)) w₀ w ((performInstall s h general o).perform w) := by
  rw [performInstall_eq]
  refine .bind (.of_steady (context_steady s h general) hw) ?_
  intro c v hcontext hv
  refine Session.Concludes.after (noteForce_steady o.force) (fun _ => report_concludes ?_ _ c) w₀ v hv
  refine installChosen_accounts s _ c o fun target htarget => ?_
  -- the configuration and the target are told, so the path is that of the order
  rw [Nameable, assetPath?, (context_ok hcontext).1, htarget]
  simp only [Option.some.injEq, forall_eq']
  exact Iff.rfl

/-- **Every command ends as it has to.** -/
theorem perform_concludes (s : Site) (h : Host) (general : GeneralOptions) (c : Command)
    {w₀ w : World} (hw : w₀.Undisturbed w) :
    Concluded (Nameable s h general w c) w₀ w ((perform s h general c).perform w) := by
  cases c with
  | install o => exact performInstall_concludes s h general o hw
  | target o => exact performTarget_concludes h o w₀ w hw
  | path => exact performPath_concludes s h general w₀ w hw
  | clean => exact performClean_concludes s h general w₀ w hw

end CommandLine

end ReleaseFetch
