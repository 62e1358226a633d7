/-
**The program.**

The command line is run in a world that holds what the run may look at: the configuration file, the
installed binary and the cache.  Afterwards its outputs are written and its changes are made on the
disk.  No server is reached from here, so every request meets no answer.
-/

import ReleaseFetch.Command.Run

set_option autoImplicit false

namespace ReleaseFetch.Program

open CommandLine

/-! ### Looking -/

/-- The variables that a run reads. -/
def variableNames : List String :=
  let settings := Settings.overrides.map (·.1) ++ Host.architectureVariables ++ [tokenVariable]
  let proxies := ["http_proxy", "https_proxy", "all_proxy", "no_proxy", "npm_config_proxy",
    "npm_config_http_proxy", "npm_config_https_proxy", "npm_config_no_proxy"]
  settings ++ proxies ++ proxies.map (·.toUpper)

/-- The variables that are set. -/
def setVariables : IO Variables := do
  let found ← variableNames.mapM fun name => do
    return (← IO.getEnv name).map fun value => (name, value)
  return found.filterMap id

/-- The first line of a file, or another text where there is none. -/
def lineOf (file other : String) : IO String := do
  try
    return Text.trim (← IO.FS.readFile file)
  catch _ => return other

/-- The host that the program runs on. -/
def host : IO Host := do
  let os ← lineOf "/proc/sys/kernel/ostype" "win32"
  let machine ← lineOf "/proc/sys/kernel/arch" "x86_64"
  return ⟨os, machine, ← setVariables⟩

/-- Where the machine keeps its directories. -/
def site (here : Path) : IO Site := do
  let home ← IO.getEnv "HOME"
  let temporary := (← IO.getEnv "TMPDIR").getD "/tmp"
  return ⟨fun user => if user.isEmpty then home else none, Path.ofText temporary, here⟩

/-- The mode of files that are looked at. -/
def assumedMode : Nat := Files.executableMode

/-- What stands at a path from the root, and down to some depth below it. -/
def observe : (depth : Nat) → String → IO (List (Location × Entry))
  | depth, text => do
    let place := (← IO.currentDir) / text
    let location : Location := (Path.ofText text).names.reverse
    if ← place.isDir then
      match depth with
      | 0 => return [(location, .directory)]
      | depth + 1 =>
        let inside ← (← place.readDir).toList.mapM fun e =>
          observe depth (text ++ "/" ++ e.fileName)
        return (location, .directory) :: inside.flatten
    else if ← place.pathExists then
      return [(location, .file (← IO.FS.readBinFile place).data.toList assumedMode)]
    else return []

/-- The directories above a path from the root. -/
def observeAbove (p : Path) : IO (List (Location × Entry)) := do
  let found ← (Session.waysTo p).mapM fun q => do
    let place := (← IO.currentDir) / q.text
    return if ← place.isDir then some (q.names.reverse, Entry.directory) else none
  return found.filterMap id

/-- The depth to which a cache is looked at. -/
def cacheDepth : Nat := 64

/-- The disk with what stands at a path and above it, and down to some depth below it. -/
def withPath (d : Disk) (depth : Nat) (p : Path) : IO Disk := do
  let p := Path.absolute d.herePath p
  let seen := (← observeAbove p) ++ (← observe depth p.text)
  return seen.foldl (fun d (l, e) => if l.isEmpty then d else d.put l e) d

/-- The disk with the way to the working directory only. -/
def bareDisk (here : Path) : Disk :=
  Session.deposit ⟨[], here.names.reverse⟩ ⟨here, .directory⟩

/-- The configuration that the arguments lead to on a disk. -/
def configOn (s : Site) (h : Host) (a : Arguments) (d : Disk) : Except Failure Config :=
  let step : Session Config := do
    Settings.load s h (← Session.give (configFile a.general.config))
  (step.perform ⟨d, [], [], [], [], [], ""⟩).1

/-- The disk with what a command line may look at. -/
def diskFor (s : Site) (h : Host) (here : Path) (a : Arguments) : IO Disk := do
  let file := Path.ofText (a.general.config.nonEmpty?.getD Settings.defaultFile)
  let d ← withPath (bareDisk here) 0 file
  match configOn s h a d with
  | .ok c => withPath (← withPath d 0 (c.binaryPath h)) cacheDepth (c.cachePath s)
  | .error _ => return d

/-! ### Changing -/

/-- Makes an entry of the disk. -/
def make (l : Location) : Entry → IO Unit
  | .directory => IO.FS.createDirAll (Disk.pathOf l).text
  | .file bytes _ => IO.FS.writeBinFile (Disk.pathOf l).text ⟨bytes.toArray⟩
  | .link _ => pure ()

/-- Removes an entry of the disk. -/
def unmake (l : Location) : IO Unit := do
  let place := (← IO.currentDir) / (Disk.pathOf l).text
  if ← place.isDir then IO.FS.removeDirAll place
  else if ← place.pathExists then IO.FS.removeFile place

/-- Makes the changes from one disk to another. -/
def makeChanges (before after : Disk) : IO Unit := do
  for (l, _) in before.entries do
    if (after.get? l).isNone then unmake l
  for (l, e) in after.entries.mergeSort fun x y => x.1.length ≤ y.1.length do
    if before.get? l != some e then make l e

/-- Runs a command line. -/
def start (words : List String) : IO UInt32 := do
  let here := Path.ofText (← IO.currentDir).toString
  let h ← host
  let s ← site here
  let disk ← match Arguments.parse words with
    | .ok a => diskFor s h here a
    | .error _ => pure (bareDisk here)
  let (outcome, world) := run s h words ⟨disk, [], [], [], [], [], ""⟩
  makeChanges disk world.disk
  IO.print outcome.out
  IO.eprint outcome.err
  return UInt32.ofNat outcome.code

end ReleaseFetch.Program

/-- The entry of the program. -/
def main (words : List String) : IO UInt32 := ReleaseFetch.Program.start words
