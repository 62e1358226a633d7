/-
**Commands that leave the network alone.**

The configuration of a command comes from the disk and the environment.  Of the commands, only the
one that installs sends requests or starts the shell: the others are local steps.

Main results:

* `ReleaseFetch.CommandLine.context_local` — the configuration of a command;
* `ReleaseFetch.CommandLine.perform_local` — the commands that do not install.
-/

import ReleaseFetch.Command.Run
import ReleaseFetch.Proofs.Session.Local

set_option autoImplicit false

namespace ReleaseFetch

open Session

theorem Session.Local.print (line : String) : Local (print line) := fun _ _ => rfl

/-! ### Files -/

namespace Files

theorem removeTree_local (p : Path) (under : Option Path) : (removeTree p under).Local := by
  have hrequire (q : Path) : (requireUnder q under).Local := by
    unfold requireUnder
    split
    · exact .pure _
    · refine .bind (.look _) ?_
      intro limit
      split
      · exact .throw _
      · exact .pure _
  refine .bind (.look _) fun q => .bind (hrequire q) fun _ => .bind (.look _) ?_
  intro found
  split
  · refine .bind (.look _) ?_
    intro isDirectory
    split
    · exact .change _
    · exact .fail _
  · exact .pure _

theorem isExecutable_local (p : Path) : (isExecutable p).Local := by
  refine .handle (.look _) (fun place => .pure _) ?_
  intro f
  simp only
  split
  · exact .pure _
  · exact .throw f

end Files

theorem Cache.clear_local (p : Path) : (clear p).Local := by
  refine .bind (.look _) ?_
  intro found
  split
  · exact .bind (Files.removeTree_local p _) fun _ => .bind (.log _ _ _) fun _ => .pure _
  · exact .bind (.log _ _ _) fun _ => .pure _

/-! ### The configuration -/

namespace Settings

theorem load_local (s : Site) (h : Host) (file : Option Path) : (load s h file).Local := by
  have hfile : (file? file).Local := by
    cases file with
    | some p =>
        refine .bind (.look _) ?_
        intro found
        split
        · exact .pure _
        · exact .fail _
    | none => exact .bind (.look _) fun p => .bind (.look _) fun found => .pure _
  have hentries (p : Option Path) : (entriesOf p).Local := by
    cases p with
    | none => exact .pure _
    | some p =>
        refine .bind (.log _ _ _) fun _ => .handle (.look _) (fun bytes => .give _) ?_
        intro f
        simp only
        split
        · exact .fail _
        · exact .throw f
  have hnote (active : List (String × Key × String)) : (noteOverrides active).Local := by
    induction active with
    | nil => exact .pure _
    | cons x rest ih => exact .bind (.log _ _ _) fun _ => ih
  exact .bind hfile fun p => .bind (hentries p) fun entries => .bind (hnote _) fun _ => .give _

end Settings

namespace CommandLine

/-- **The configuration of a command comes without the network.** -/
theorem context_local (s : Site) (h : Host) (o : GeneralOptions) : (context s h o).Local := by
  refine .bind (.give _) fun file => .bind (Settings.load_local s h file) ?_
  intro config
  have hnote : (do
      log .debug .context s!"Configuration: {config.shown}"
      return config : Session Config).Local := .bind (.log _ _ _) fun _ => .pure _
  split
  · exact .bind (.throw _) fun _ => hnote
  · exact hnote

/-! ### Commands -/

/-- The command installs. -/
def Command.installs : Command → Bool
  | .install _ => true
  | _ => false

theorem performTarget_local (h : Host) (o : TargetOptions) : (performTarget h o).Local := by
  unfold performTarget
  have hall (targets : List String) : (targets.forM print : Session PUnit).Local := by
    induction targets with
    | nil => exact .pure _
    | cons target rest ih => exact .bind (.print _) fun _ => ih
  split
  · exact .bind (hall _) fun _ => .pure _
  · cases (withArchitecture h o.arch).target with
    | ok target => exact .bind (.print _) fun _ => .pure _
    | error p => exact .bind (.log _ _ _) fun _ => .pure _

/-- Prints the path of a binary that can be run. -/
def reportPath (binary : Path) (runs : Bool) : Session Nat :=
  if !runs then do
    log .error .pathCommand s!"{binary.text} is not executable; reinstall with --force"
    return 1
  else do
    print binary.text
    return 0

theorem performPath_local (s : Site) (h : Host) (o : GeneralOptions) : (performPath s h o).Local := by
  refine .bind (context_local s h o) fun c => .bind (.look _) ?_
  intro found
  split
  · exact .bind (.log _ _ _) fun _ => .pure _
  · have hruns (runs : Bool) : (reportPath (c.binaryPath h) runs).Local := by
      unfold reportPath
      split
      · exact .bind (.log _ _ _) fun _ => .pure _
      · exact .bind (.print _) fun _ => .pure _
    simp only
    split
    · exact .bind (.pure _) hruns
    · exact .bind (Files.isExecutable_local _) hruns

theorem performClean_local (s : Site) (h : Host) (o : GeneralOptions) :
    (performClean s h o).Local := by
  refine .bind (context_local s h o) fun c => .bind (Cache.clear_local _) ?_
  intro cleared
  split
  · exact .bind (.log _ _ _) fun _ => .pure _
  · exact .pure _

/-- **A command that does not install leaves the network alone.** -/
theorem perform_local (s : Site) (h : Host) (general : GeneralOptions) {c : Command}
    (hc : c.installs = false) : (perform s h general c).Local := by
  cases c with
  | install o => cases hc
  | target o => exact performTarget_local h o
  | path => exact performPath_local s h general
  | clean => exact performClean_local s h general

end CommandLine

end ReleaseFetch
