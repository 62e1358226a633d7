/-
**The host of a run.**

A run depends on its host through three things only: the name of the operating system, the name of
the machine, and the environment variables.  They are held in one value, so that a run for any host
can be described on any other.

Main definitions:

* `ReleaseFetch.Variables` — environment variables;
* `ReleaseFetch.Host` — the host, with `Host.system`, `Host.architecture`, `Host.isWindows`;
* `ReleaseFetch.normalOs`, `ReleaseFetch.normalArchitecture` — the names that targets go by;
* `ReleaseFetch.Host.firstSet?` — the first variable of several that is not empty.
-/

import ReleaseFetch.Fields
import ReleaseFetch.Text.Blank
import ReleaseFetch.Text.Lowercase

set_option autoImplicit false

namespace ReleaseFetch

/-! ### Names -/

/-- The architecture that a machine name stands for. -/
def normalArchitecture (machine : String) : String :=
  let name := Text.lower (Text.trim machine)
  if ["x86_64", "amd64", "x64"].contains name then "x64"
  else if ["aarch64", "arm64", "aarch64_be"].contains name then "arm64"
  else if "arm".toList.isPrefixOf name.toList then "arm"
  else if ["ppc64", "ppc64le", "powerpc64", "powerpc64le"].contains name then "ppc64"
  else if ["i386", "i486", "i586", "i686", "x86", "ia32"].contains name then "ia32"
  else name

/-- The operating system that a platform name stands for. -/
def normalOs (platform : String) : String :=
  let name := Text.lower (Text.trim platform)
  if "linux".toList.isPrefixOf name.toList then "linux"
  else if ["win32", "windows", "cygwin", "msys"].contains name then "win32"
  else name

/-! ### The host -/

/-- Environment variables with their values. -/
abbrev Variables := List (String × String)

/-- What a run depends on. -/
structure Host where
  os : String
  machine : String
  environment : Variables
  deriving DecidableEq

namespace Host

/-- The variables that override the machine name, the first one first. -/
def architectureVariables : List String := ["BINFETCH_ARCH", "npm_config_arch"]

/-- The value of a variable. -/
def get? (h : Host) (name : String) : Option String := h.environment.lookup name

/-- The value of a variable that is set and not empty. -/
def nonEmpty? (h : Host) (name : String) : Option String := (h.get? name).filter (· != "")

/-- The first value that is not empty. -/
def firstSet? (h : Host) (names : List String) : Option String := names.findSome? h.nonEmpty?

/-- The operating system. -/
def system (h : Host) : String := normalOs h.os

/-- The operating system is Windows. -/
def isWindows (h : Host) : Bool := h.system == "win32"

/-- The architecture: what a variable says, or else the machine name. -/
def architecture (h : Host) : String :=
  normalArchitecture ((h.firstSet? architectureVariables).getD h.machine)

/-- The host with one more variable. -/
def withVariable (h : Host) (name value : String) : Host :=
  { h with environment := Fields.set name value h.environment }

@[simp] theorem get?_withVariable (h : Host) (name value other : String) :
    (h.withVariable name value).get? other = if other = name then some value else h.get? other := by
  simp [withVariable, get?, Fields.lookup_set]

/-- Other variables are not looked at. -/
theorem firstSet?_congr {h h' : Host} {names : List String}
    (hsame : ∀ name ∈ names, h.nonEmpty? name = h'.nonEmpty? name) :
    h.firstSet? names = h'.firstSet? names := by
  unfold firstSet?
  induction names with
  | nil => rfl
  | cons name rest ih =>
    obtain ⟨hname, hrest⟩ := List.forall_mem_cons.1 hsame
    rw [List.findSome?_cons, List.findSome?_cons, hname, ih hrest]

end Host

end ReleaseFetch
