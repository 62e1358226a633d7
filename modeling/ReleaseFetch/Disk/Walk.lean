/-
**Where a path leads.**

A path is walked name by name from the root or the working directory: two dots go up, a link is
replaced by the names of its target, and every name but the last must be a directory.  The walk
ends at a place, which is an entry or a vacant name in a directory, or at an error.  A second,
lenient walk gives the path without links that a path stands for, even where nothing is there.

Main definitions:

* `ReleaseFetch.Disk.Place` — the end of a walk;
* `ReleaseFetch.Disk.walk`, `ReleaseFetch.Disk.locate` — the walk of a path;
* `ReleaseFetch.Disk.resolve` — the path without links.
-/

import ReleaseFetch.Disk.Basic

set_option autoImplicit false

namespace ReleaseFetch.Disk

/-! ### The walk -/

/-- The end of a walk: a location, and what stands there.  A vacant place lies in an existing
directory. -/
structure Place where
  location : Location
  entry : Option Entry
  deriving DecidableEq

/-- How far names lead: to a place, or to a link that has to be followed before the names left. -/
inductive Stop where
  | place (p : Place)
  | link (directory : Location) (target : String) (left : List String)

/-- The longest name a directory can hold, in bytes. -/
def nameLimit : Nat := 255

/-- The longest path the system takes, in bytes. -/
def pathLimit : Nat := 4095

/-- The number of links that a walk follows. -/
def linkLimit : Nat := 40

/-- Walks from a directory up to the end or the first link to follow.  A link at the very end is
followed only if `follow` says so. -/
def advance (d : Disk) (follow : Bool) (l : Location) : List String → Except Errno Stop
  | [] => .ok (.place ⟨l, some .directory⟩)
  | n :: rest =>
    if n = ".." then d.advance follow l.tail rest
    else if n = "." then d.advance follow l rest
    else if Text.Utf8.size n > nameLimit then .error .nameTooLong
    else match d.get? (n :: l) with
      | some .directory => d.advance follow (n :: l) rest
      | some (.link target) =>
        if rest.isEmpty && !follow then .ok (.place ⟨n :: l, some (.link target)⟩)
        else .ok (.link l target rest)
      | entry =>
        if rest.isEmpty then .ok (.place ⟨n :: l, entry⟩)
        else .error (if entry.isNone then .noEntry else .notDirectory)

/-- The directory that a link's target starts from. -/
def linkStart (l : Location) (target : Path) : Location :=
  match target.root with
  | .here => l
  | _ => []

/-- The names that a link's target stands for.  A target that ends in a slash or a dot has to lead
to a directory, which a dot behind its names says. -/
def targetNames (target : String) : List String :=
  let names := (Path.ofText target).names
  match (Text.pieces '/' target.toList).getLast? with
  | some [] | some ['.'] => names ++ ["."]
  | _ => names

/-- Walks from a directory, following at most `links` links. -/
def walk (d : Disk) (follow : Bool) : (links : Nat) → Location → List String → Except Errno Place
  | links, l, names =>
    match d.advance follow l names with
    | .error e => .error e
    | .ok (.place p) => .ok p
    | .ok (.link at_ target rest) =>
      match links with
      | 0 => .error .loop
      | links + 1 =>
        d.walk follow links (linkStart at_ (Path.ofText target)) (targetNames target ++ rest)

/-- The directory that a path starts from. -/
def start (d : Disk) (p : Path) : Location :=
  match p.root with
  | .here => d.here
  | _ => []

/-- The place that a path leads to. -/
def locate (d : Disk) (follow : Bool) (p : Path) : Except Errno Place :=
  let l := d.start p
  if Text.Utf8.size p.text > pathLimit then .error .nameTooLong
  else if !p.names.isEmpty && d.get? l != some .directory then .error .noEntry
  else d.walk follow linkLimit l p.names

/-! ### The path without links -/

/-- Where the lenient walk stands, as it is written: the names back to the root or to the working
directory. -/
structure Spot where
  root : Root
  back : List String
  deriving DecidableEq

namespace Spot

/-- The path that is written there. -/
def path (s : Spot) : Path := ⟨s.root, s.back.reverse⟩

/-- One name further. -/
def enter (s : Spot) (n : String) : Spot := ⟨s.root, n :: s.back⟩

/-- One name back.  Above the working directory, two dots are written for it. -/
def above (s : Spot) : Spot :=
  match s.back with
  | [] => if s.root = .here then s.enter ".." else s
  | n :: up => if n = ".." then s.enter ".." else ⟨s.root, up⟩

/-- Where the names of a path are walked from. -/
def start (s : Spot) (p : Path) : Spot :=
  match p.root with
  | .here => s
  | _ => ⟨.single, []⟩

end Spot

/-- A step of the lenient walk: a name to enter, or the end of a link's target. -/
inductive Step where
  | enter (name : String)
  | leave (link : Spot)

/-- What is known of a link, by the way that it is written: where it leads, or that it is being
followed. -/
abbrev Known := List (Spot × Option Spot)

/-- How far steps lead: to the end, back to a link that is being followed, or to a link that is
new. -/
inductive Lead where
  | done (s : Spot)
  | cycle (s : Spot) (left : List Step)
  | link (directory : Spot) (name target : String) (known : Known) (left : List Step)

/-- The target of the link that is at a path.  A path that is too long is not looked at. -/
def linkAt? (d : Disk) (p : Path) : Option String :=
  match d.locate false p with
  | .ok ⟨_, some (.link target)⟩ => some target
  | _ => none

/-- Walks up to the end or the first link that is not known; `look` says where the links are.  What
is not a link is taken as it is, whether it exists or not. -/
def settle (look : Path → Option String) (known : Known) (s : Spot) : List Step → Lead
  | [] => .done s
  | .leave link :: rest => settle look ((link, some s) :: known) s rest
  | .enter n :: rest =>
    if n = ".." then settle look known s.above rest
    else match look (s.enter n).path with
      | none => settle look known (s.enter n) rest
      | some target =>
        match known.lookup (s.enter n) with
        | some (some t) => settle look known t rest
        | some none => .cycle (s.enter n) rest
        | none => .link s n target known rest

/-- The names among steps. -/
def stepNames : List Step → List String
  | [] => []
  | .enter n :: rest => n :: stepNames rest
  | .leave _ :: rest => stepNames rest

/-- The path that steps lead to, which follow at most `links` links.  From a cycle on, names are
taken as they are. -/
def settleAll (look : Path → Option String) :
    (links : Nat) → Known → Spot → List Step → Path
  | links, known, s, steps =>
    match settle look known s steps with
    | .done t => t.path
    | .cycle t left => ⟨t.root, t.path.names ++ stepNames left⟩
    | .link t n target known left =>
      match links with
      | 0 => (t.enter n).path
      | links + 1 =>
        let p := Path.ofText target
        settleAll look links ((t.enter n, none) :: known) (t.start p)
          (p.names.map .enter ++ .leave (t.enter n) :: left)

/-- The number of links on the disk. -/
def linkCount (d : Disk) : Nat :=
  (d.entries.filter fun x => match x.2 with | .link _ => true | _ => false).length

/-- How often the lenient walk may enter a link: once for each way to write it, and these differ by
the dots in front. -/
def settleLimit (d : Disk) : Nat := d.linkCount * (pathLimit + 1)

/-- The path without links that a path stands for, as it is written. -/
def settled (d : Disk) (look : Path → Option String) (p : Path) : Path :=
  settleAll look d.settleLimit [] (Spot.start ⟨.here, []⟩ p) (p.names.map .enter)

/-- The path holds the character that no path can hold. -/
def hasNul (p : Path) : Bool := p.names.any fun n => n.toList.contains '\x00'

/-- What is said of a path that holds it. -/
def nulFailure : Failure := .badValue "embedded null byte"

/-- The path from the root, without links, that a path stands for.  A cycle of links is an
error, and so is a working directory that was removed, where the path starts there. -/
def resolve (d : Disk) (p : Path) : Except Failure Path :=
  if hasNul p then .error nulFailure
  else
    let q := d.settled d.linkAt? p
    if q.root = .here && d.get? d.here != some .directory then .error (.system ⟨.noEntry, []⟩)
    else
      let r := Path.absolute d.herePath q
      match d.locate true r with
      | .error .loop => .error (.value .runtime s!"Symlink loop from {Text.quoted r.text}")
      | _ => .ok r

end ReleaseFetch.Disk
