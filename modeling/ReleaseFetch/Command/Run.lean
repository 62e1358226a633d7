/-
**Running a command.**

A command line that cannot be read, and one that asks for help, end before anything is done.  A
command ends with a code: problems of an installation are reported and end it with one, as does
every other failure, and an interrupt ends it with 130.

Main definitions:

* `ReleaseFetch.CommandLine.perform` — a command as a step of a run;
* `ReleaseFetch.CommandLine.Closing` — how a command closes;
* `ReleaseFetch.CommandLine.Outcome`, `ReleaseFetch.CommandLine.run` — a command line, run in a
  world.
-/

import ReleaseFetch.Command.Arguments
import ReleaseFetch.Install.Placement
import ReleaseFetch.Settings.Load

set_option autoImplicit false

namespace ReleaseFetch.CommandLine

open Session

/-! ### Commands -/

/-- The configuration file that an option names. -/
def configFile : Value → Except Failure (Option Path)
  | .absent => .ok none
  | .dropped => .error (.value .type "expected str, bytes or os.PathLike object, not list")
  | .text s => .ok (some (Path.ofText s))

/-- The configuration that a command runs with. -/
def context (s : Site) (h : Host) (o : GeneralOptions) : Session Config := do
  let config ← Settings.load s h (← give (configFile o.config))
  if !config.isWritable then throw (.badValue Numeral.unwritableText)
  log .debug .context s!"Configuration: {config.shown}"
  return config

/-- The host, with the architecture that an option names. -/
def withArchitecture (h : Host) (arch : Value) : Host :=
  match arch.nonEmpty? with
  | some a => h.withVariable "BINFETCH_ARCH" a
  | none => h

/-- The target that an option names, or else that of the host. -/
def chosenTarget (h : Host) (target : Value) : Except Failure String :=
  match target.nonEmpty? with
  | some t => .ok t
  | none => h.target.mapError .problem

/-- The directory that an option names, or else that of the configuration. -/
def chosenDirectory (c : Config) : Value → Path
  | .text s => Path.ofText s
  | _ => c.binDir

/-- Installs what the options ask for. -/
def installChosen (s : Site) (h : Host) (c : Config) (o : InstallOptions) : Session Unit := do
  let target ← give (chosenTarget h o.target)
  if !supportedTargets.contains target then
    log .warning .installCommand s!"{target} is not a known release target"
  let order : Order :=
    ⟨o.release.nonEmpty?.getD c.version, target, chosenDirectory c o.binDir, o.force, h.token?⟩
  let _ ← (Installer.ofConfig s c h).install order

/-- Installs, and reports a problem. -/
def performInstall (s : Site) (h : Host) (general : GeneralOptions) (o : InstallOptions) :
    Session Nat := do
  let c ← context s h general
  let h := withArchitecture h o.arch
  if o.force then log .info .installCommand "--force, ignoring caches"
  match ← attempt (installChosen s h c o) with
  | .ok () => return 0
  | .error (.problem p) =>
    log .error .installCommand s!"Downloading {c.toolName} failed: {p.message}"
    if general.verbose then logDetails .installCommand "Details"
    return 1
  | .error f => throw f

/-- Prints the target of the host, or every target. -/
def performTarget (h : Host) (o : TargetOptions) : Session Nat := do
  if o.list then
    supportedTargets.forM print
    return 0
  match (withArchitecture h o.arch).target with
  | .ok target =>
    print target
    return 0
  | .error p =>
    log .error .targetCommand p.message
    return 1

/-- Prints the path of the installed binary, if it can be run. -/
def performPath (s : Site) (h : Host) (general : GeneralOptions) : Session Nat := do
  let c ← context s h general
  let binary := c.binaryPath h
  if !(← look (·.exists? binary)) then
    log .error .pathCommand s!"{c.toolName} is not installed (expected {binary.text})"
    return 1
  let runs ← if h.isWindows then pure true else Files.isExecutable binary
  if !runs then
    log .error .pathCommand s!"{binary.text} is not executable; reinstall with --force"
    return 1
  print binary.text
  return 0

/-- Removes the cache. -/
def performClean (s : Site) (h : Host) (general : GeneralOptions) : Session Nat := do
  let c ← context s h general
  let directory := c.cachePath s
  if !(← Cache.clear directory) then
    log .info .cleanCommand s!"Nothing to clean at {directory.text}"
  return 0

/-- A command as a step of a run, which ends with a code. -/
def perform (s : Site) (h : Host) (general : GeneralOptions) : Command → Session Nat
  | .install o => performInstall s h general o
  | .target o => performTarget h o
  | .path => performPath s h general
  | .clean => performClean s h general

/-! ### Closing -/

/-- How a command closes: its code, a last record, and whether the details of a failure follow. -/
structure Closing where
  code : Nat
  records : List Record
  details : Bool

/-- How a command closes that ended in this way. -/
def Closing.ofResult (verbose : Bool) : Except Failure Nat → Closing
  | .ok code => ⟨code, [], false⟩
  | .error f =>
    if f.isInterrupt then
      ⟨130, [⟨.info, .commandLine, "Operation cancelled by user", false⟩], false⟩
    else ⟨1, [⟨.error, .commandLine, s!"Error: {f.message}", false⟩], verbose⟩

/-- What a command line comes to: its code, whether it ended before a command was chosen, and what
it wrote to the two outputs. -/
structure Outcome where
  code : Nat
  early : Bool
  out : String
  err : String
  deriving DecidableEq

/-- What a reading comes to that ends early. -/
def Ending.outcome : Ending → Outcome
  | .printed text => ⟨0, true, text, ""⟩
  | .refused text => ⟨2, true, "", text⟩

/-- Runs a command in a world whose journal and output are fresh. -/
def runCommand (s : Site) (h : Host) (general : GeneralOptions) (c : Command) (w : World) :
    Outcome × World :=
  let (result, after) :=
    (perform s h general c).perform { w with journal := [], printed := "" }
  let closing := Closing.ofResult general.verbose result
  let journal := after.journal ++ closing.records
  let err := general.verbosity.render journal ++ (if closing.details then detailsLine else "")
  (⟨closing.code, false, after.printed, err⟩, { after with journal := journal })

/-- Runs a command line. -/
def run (s : Site) (h : Host) (words : List String) (w : World) : Outcome × World :=
  match Arguments.parse words with
  | .error e => (e.outcome, w)
  | .ok a =>
    match a.command with
    | none => (⟨1, false, helpText, ""⟩, w)
    | some c => runCommand s h a.general c w

end ReleaseFetch.CommandLine
