/-
**Looking at the disk, and changing it, by path.**

Each operation takes a path, walks it, and either answers or says which error number the system
gives and for which path.  A path with a null character never reaches the system.

Main definitions:

* `ReleaseFetch.Disk.status`, `ReleaseFetch.Disk.exists?`, `ReleaseFetch.Disk.isDirectory?`,
  `ReleaseFetch.Disk.read` — looking;
* `ReleaseFetch.Disk.makeDirectory`, `ReleaseFetch.Disk.unlink`,
  `ReleaseFetch.Disk.removeDirectory`, `ReleaseFetch.Disk.setMode`, `ReleaseFetch.Disk.createNew`,
  `ReleaseFetch.Disk.replace`, `ReleaseFetch.Disk.copyFile` — changing.
-/

import ReleaseFetch.Disk.Walk

set_option autoImplicit false

namespace ReleaseFetch.Disk

/-! ### Errors -/

/-- The failure that names one path. -/
def failAt (p : Path) (e : Errno) : Failure := .system ⟨e, [p.text]⟩

/-- The failure that names two paths. -/
def failBetween (p q : Path) (e : Errno) : Failure := .system ⟨e, [p.text, q.text]⟩

/-- The place that a path leads to, or the failure that names it. -/
def find (d : Disk) (follow : Bool) (p : Path) : Except Failure Place :=
  if hasNul p then .error nulFailure
  else match d.locate follow p with
    | .ok place => .ok place
    | .error e => .error (failAt p e)

/-- Errors that only say that nothing is there. -/
def saysAbsent : Failure → Bool
  | .system f => f.errno == .noEntry || f.errno == .notDirectory || f.errno == .loop
  | .value .value _ => true
  | _ => false

/-! ### Looking -/

/-- What a path leads to, links followed. -/
def status (d : Disk) (p : Path) : Except Failure Place :=
  match d.find true p with
  | .error f => .error f
  | .ok place =>
    match place.entry with
    | some _ => .ok place
    | none => .error (failAt p .noEntry)

/-- A question about a path that is answered with no where nothing is there. -/
def ask (d : Disk) (p : Path) (question : Option Entry → Bool) : Except Failure Bool :=
  match d.status p with
  | .ok place => .ok (question place.entry)
  | .error f => if saysAbsent f then .ok false else .error f

/-- Something is at the path. -/
def exists? (d : Disk) (p : Path) : Except Failure Bool := d.ask p fun _ => true

/-- A directory is at the path. -/
def isDirectory? (d : Disk) (p : Path) : Except Failure Bool :=
  d.ask p fun e => e == some .directory

/-- The path of the working directory; there is none to one that was removed. -/
def workingPath (d : Disk) : Except Failure Path :=
  if d.get? d.here == some .directory then .ok d.herePath
  else .error (.system ⟨.noEntry, []⟩)

/-- The bytes of the file at a path. -/
def read (d : Disk) (p : Path) : Except Failure (List UInt8) :=
  match d.find true p with
  | .error f => .error f
  | .ok place =>
    match place.entry with
    | some (.file bytes _) => .ok bytes
    | some _ => .error (failAt p .isDirectory)
    | none => .error (failAt p .noEntry)

/-! ### Changing -/

/-- The modes of a file that is written, and of one that must be private until it is complete. -/
def fileMode : Nat := 0o644

/-- The mode of a file while it is being downloaded. -/
def privateMode : Nat := 0o600

/-- Makes one directory. -/
def makeDirectory (d : Disk) (p : Path) : Except Failure Disk :=
  match d.find false p with
  | .error f => .error f
  | .ok place =>
    match place.entry with
    | none => .ok (d.put place.location .directory)
    | some _ => .error (failAt p .exists)

/-- Removes the file or link at a path. -/
def unlink (d : Disk) (p : Path) : Except Failure Disk :=
  match d.find false p with
  | .error f => .error f
  | .ok place =>
    match place.entry with
    | none => .error (failAt p .noEntry)
    | some .directory => .error (failAt p .isDirectory)
    | some _ => .ok (d.erase place.location)

/-- Removes the directory at a path with all that is in it.  It is not removed through a link. -/
def removeDirectory (d : Disk) (p : Path) : Except Failure Disk :=
  match d.find false p with
  | .error f => .error f
  | .ok place =>
    match place.entry with
    | some (.link _) =>
      .error (.problem (.filesystem
        s!"Failed to remove directory '{p.text}': Cannot call rmtree on a symbolic link"))
    | _ => .ok (d.eraseTree place.location)

/-- Sets the mode of what a path leads to.  The mode of a directory is not kept. -/
def setMode (d : Disk) (p : Path) (mode : Nat) : Except Failure Disk :=
  match d.status p with
  | .error f => .error f
  | .ok place =>
    match place.entry with
    | some (.file bytes _) => .ok (d.put place.location (.file bytes mode))
    | _ => .ok d

/-- Makes a new, empty and private file; `none` if the name is taken. -/
def createNew (d : Disk) (p : Path) : Except Failure (Option Disk) :=
  match d.find false p with
  | .error f => .error f
  | .ok place =>
    match place.entry with
    | none => .ok (some (d.put place.location (.file [] privateMode)))
    | some _ => .ok none

/-- Writes bytes to the end of the file at a path. -/
def append (d : Disk) (p : Path) (more : List UInt8) : Except Failure Disk :=
  match d.status p with
  | .error f => .error f
  | .ok place =>
    match place.entry with
    | some (.file bytes mode) => .ok (d.put place.location (.file (bytes ++ more) mode))
    | _ => .error (failAt p .isDirectory)

/-- The last name of the path is one that a directory can hold. -/
def endsInName (p : Path) : Bool := p.name != "" && p.name != ".."

/-- Moves the file at the first path to the second, over a file or link that stands there. -/
def replace (d : Disk) (source destination : Path) : Except Failure Disk :=
  if hasNul source || hasNul destination then .error nulFailure
  else
    let fail := failBetween source destination
    match d.locate false source, d.locate false destination with
    | .error e, _ => .error (fail e)
    | _, .error e => .error (fail e)
    | .ok old, .ok new =>
      if !endsInName source || !endsInName destination then .error (fail .busy)
      else match old.entry with
        | none => .error (fail .noEntry)
        | some entry =>
          if new.entry == some .directory then .error (fail .isDirectory)
          else .ok ((d.erase old.location).put new.location entry)

/-- The two paths lead to the same entry. -/
def isSame (d : Disk) (p q : Path) : Bool :=
  match d.status p, d.status q with
  | .ok a, .ok b => a.location == b.location
  | _, _ => false

/-- Writes bytes over the file at a path, whose mode stays, or into a new file. -/
def write (d : Disk) (p : Path) (bytes : List UInt8) : Except Failure Disk :=
  match d.find true p with
  | .error f => .error f
  | .ok place =>
    match place.entry with
    | none => .ok (d.put place.location (.file bytes fileMode))
    | some (.file _ mode) => .ok (d.put place.location (.file bytes mode))
    | some _ => .error (failAt p .isDirectory)

/-- Copies the bytes of one file to another path.  A file is not copied onto itself. -/
def copyFile (d : Disk) (source destination : Path) : Except Failure Disk :=
  if hasNul source || hasNul destination then .error nulFailure
  else if d.isSame source destination then .error (.sameFile source destination)
  else match d.read source with
    | .error f => .error f
    | .ok bytes => d.write destination bytes

end ReleaseFetch.Disk
