/-
**Paths as texts.**

A path is a root and a list of names.  Empty names and single dots are dropped when a path is read;
two dots stay, because only the disk knows where they lead.  Exactly two leading slashes are a root
of their own.

Main definitions:

* `ReleaseFetch.Path` — the paths, with `Path.ofText` and `Path.text`;
* `ReleaseFetch.Path.join`, `ReleaseFetch.Path.parent`, `ReleaseFetch.Path.name`;
* `ReleaseFetch.Path.isBelow` — one path lies under another, by its names alone;
* `ReleaseFetch.Path.absolute` — a path from the root, two dots resolved by name;
* `ReleaseFetch.Path.user?`, `ReleaseFetch.Path.expandHome?` — the user that a leading tilde names,
  and the tilde replaced by a home directory.
-/

import ReleaseFetch.Text.Split
import ReleaseFetch.Text.Quoted

set_option autoImplicit false

namespace ReleaseFetch

/-- Where a path starts. -/
inductive Root where
  | here
  | single
  | double
  deriving DecidableEq

/-- The slashes of a root. -/
def Root.text : Root → String
  | .here => ""
  | .single => "/"
  | .double => "//"

/-- A path: where it starts, and the names on its way. -/
structure Path where
  root : Root
  names : List String
  deriving DecidableEq

namespace Path

/-! ### Reading and writing -/

/-- The names of a text between slashes, without empty ones and single dots. -/
def namesOf (cs : List Char) : List String :=
  ((Text.pieces '/' cs).map String.ofList).filter fun n => n != "" && n != "."

/-- The root of a text. -/
def rootOf : List Char → Root
  | '/' :: '/' :: '/' :: _ => .single
  | '/' :: '/' :: _ => .double
  | '/' :: _ => .single
  | _ => .here

/-- The path that a text names. -/
def ofText (s : String) : Path := ⟨rootOf s.toList, namesOf s.toList⟩

/-- The text of a path; the working directory is a dot. -/
def text (p : Path) : String :=
  if p.root = .here && p.names.isEmpty then "." else p.root.text ++ Text.join "/" p.names

/-- The path as it is named in a message. -/
def shown (p : Path) : String := s!"PosixPath({Text.quoted p.text})"

/-! ### Moving -/

/-- The second path as seen from the first. -/
def join (p q : Path) : Path :=
  match q.root with
  | .here => ⟨p.root, p.names ++ q.names⟩
  | _ => q

/-- The path of an entry of a directory. -/
def child (p : Path) (name : String) : Path := p.join (ofText name)

/-- The path without its last name. -/
def parent (p : Path) : Path := ⟨p.root, p.names.dropLast⟩

/-- The last name of a path, or nothing. -/
def name (p : Path) : String := p.names.getLast?.getD ""

@[simp] theorem parent_names (p : Path) : p.parent.names = p.names.dropLast := rfl

@[simp] theorem parent_root (p : Path) : p.parent.root = p.root := rfl

theorem parent_eq_self_iff (p : Path) : p.parent = p ↔ p.names = [] := by
  cases p with
  | mk r ns =>
    constructor
    · intro h
      have h' : ns.dropLast = ns := by simpa [parent] using congrArg Path.names h
      have := congrArg List.length h'
      cases ns with
      | nil => rfl
      | cons n ns => simp at this
    · rintro h
      simp_all [parent]

/-- The first path is the second or lies under it, going by names. -/
def isBelow (p q : Path) : Bool := p.root == q.root && q.names.isPrefixOf p.names

/-- The path goes up somewhere. -/
def goesUp (p : Path) : Bool := p.names.contains ".."

/-! ### From the root -/

/-- Takes two dots back together with the name before them; `done` is leaf first. -/
def settleNames (done : List String) : List String → List String
  | [] => done.reverse
  | n :: rest => if n = ".." then settleNames done.tail rest else settleNames (n :: done) rest

/-- The path from the root, as seen from the directory `here`, two dots resolved by name. -/
def absolute (here p : Path) : Path :=
  let q := here.join p
  ⟨q.root, settleNames [] q.names⟩

/-- The user that a leading tilde names; a tilde alone names the user of the run, with no name. -/
def user? (p : Path) : Option String :=
  match p.root, p.names with
  | .here, n :: _ =>
    match n.toList with
    | '~' :: user => some (String.ofList user)
    | _ => none
  | _, _ => none

/-- A leading tilde, alone or with a user's name, replaced by the home directory that `home?`
gives; a path that does not start with one stays as it is. -/
def expandHome? (home? : String → Option String) (p : Path) : Option Path :=
  match p.user? with
  | some user => (home? user).map fun h => (ofText h).join ⟨.here, p.names.tail⟩
  | none => some p

end Path

end ReleaseFetch
