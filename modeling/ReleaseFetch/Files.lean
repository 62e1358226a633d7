/-
**Placing and removing files.**

The steps by which a run works on its disk: directories that may exist already, deletions that
never stop a run, the removal of a tree that must lie under a given directory, and the copy of an
executable into its place.

Main definitions:

* `ReleaseFetch.Files.ensureDirectory` — a directory with all directories on its way;
* `ReleaseFetch.Files.discard` — a file deleted if it is there;
* `ReleaseFetch.Files.removeTree` — a tree removed, inside a given directory only;
* `ReleaseFetch.Files.copyExecutable`, `ReleaseFetch.Files.makeExecutable`,
  `ReleaseFetch.Files.findBinary`, `ReleaseFetch.Files.isExecutable`.
-/

import ReleaseFetch.World

set_option autoImplicit false

namespace ReleaseFetch.Files

open Session

/-! ### Directories -/

/-- The system says that something on the way is missing. -/
def isNoEntry : Failure → Bool
  | .system f => f.errno == .noEntry
  | _ => false

/-- Lets a failure to make a directory pass if the directory is there. -/
def passIfThere (p : Path) (f : Failure) : Session Unit := do
  if !f.isSystem then throw f
  if !(← look (·.isDirectory? p)) then throw f

/-- Makes a directory and, where needed, up to `depth` directories above it. -/
def ensureWithin : (depth : Nat) → Path → Session Unit
  | depth, p => do
    match ← attempt (change (·.makeDirectory p)) with
    | .ok () => pure ()
    | .error f =>
      if isNoEntry f then
        match depth with
        | 0 => throw f
        | depth + 1 =>
          ensureWithin depth p.parent
          match ← attempt (change (·.makeDirectory p)) with
          | .ok () => pure ()
          | .error g => if isNoEntry g then throw g else passIfThere p g
      else passIfThere p f

/-- Makes a directory with all directories on its way; one that is there stays as it is. -/
def ensureDirectory (p : Path) : Session Unit := ensureWithin p.names.length p

/-! ### Removal -/

/-- Deletes a file if it is there, and says whether it did.  A failure of the system is noted and
passed over. -/
def discard (p : Path) : Session Bool := do
  match ← attempt (change (·.unlink p)) with
  | .ok () => return true
  | .error f =>
    if isNoEntry f then return false
    else if f.isSystem then
      log .debug .filesystem s!"Could not delete {p.text}: {f.message}"
      return false
    else throw f

/-- The path without links lies under the directory that it has to lie under. -/
def requireUnder (p : Path) : Option Path → Session Unit
  | none => pure ()
  | some limit => do
    let limit ← look (·.resolve limit)
    if !p.isBelow limit then
      throw (.badValue
        s!"Refusing to delete '{p.text}': not under required prefix '{limit.text}'")

/-- Removes a directory with all that is in it.  Nothing is done where nothing is. -/
def removeTree (p : Path) (under : Option Path) : Session Unit := do
  let p ← look (·.resolve p)
  requireUnder p under
  if ← look (·.exists? p) then
    if ← look (·.isDirectory? p) then
      change (·.removeDirectory p)
    else fail (.filesystem s!"Path is not a directory: {p.text}")

/-! ### Executables -/

/-- The mode of an executable. -/
def executableMode : Nat := 0o755

/-- Copies a file to its final place, whose directory is made if needed. -/
def copyExecutable (source destination : Path) : Session Unit := do
  ensureDirectory destination.parent
  change (·.copyFile source destination)

/-- Lets everybody run the file. -/
def makeExecutable (p : Path) : Session Unit := change (·.setMode p executableMode)

/-- The owner may run what is at the path. -/
def isExecutable (p : Path) : Session Bool := do
  match ← attempt (look (·.status p)) with
  | .ok place => return (place.entry.map (·.isExecutable)).getD false
  | .error f => if f.isSystem then return false else throw f

/-- The executable of a directory: the bare name first, then the name with its suffix. -/
def findBinary (directory : Path) (name : String) : Session (Option Path) := do
  let bare := directory.child name
  if ← look (·.exists? bare) then return some bare
  let suffixed := directory.child (name ++ ".exe")
  if ← look (·.exists? suffixed) then return some suffixed
  return none

end ReleaseFetch.Files
