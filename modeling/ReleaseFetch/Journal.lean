/-
**The journal of a run.**

Every step of a run says what it does.  A record has a level, the part of the program that wrote
it, and a text; one that reports a failure in full carries its details, which a single line stands
for.  How much of the journal is shown, and in which form, is the choice of the command line.

Main definitions:

* `ReleaseFetch.Level`, `ReleaseFetch.Source`, `ReleaseFetch.Record`;
* `ReleaseFetch.Verbosity` — how a journal is shown, with `Verbosity.shows` and
  `Verbosity.line`;
* `ReleaseFetch.Verbosity.render` — the text of a journal.
-/

set_option autoImplicit false

namespace ReleaseFetch

/-- How important a record is. -/
inductive Level where
  | debug
  | info
  | warning
  | error
  deriving DecidableEq

/-- Levels in increasing order. -/
def Level.rank : Level → Nat
  | .debug => 0
  | .info => 1
  | .warning => 2
  | .error => 3

/-- The word for a level. -/
def Level.label : Level → String
  | .debug => "DEBUG"
  | .info => "INFO"
  | .warning => "WARNING"
  | .error => "ERROR"

/-- The parts of the program that write records. -/
inductive Source where
  | settings
  | download
  | releases
  | directory
  | filesystem
  | cache
  | installer
  | commandLine
  | context
  | installCommand
  | targetCommand
  | pathCommand
  | cleanCommand
  deriving DecidableEq

/-- The name a part writes under. -/
def Source.label : Source → String
  | .settings => "binfetch.config.settings"
  | .download => "binfetch.core.download"
  | .releases => "binfetch.core.releases"
  | .directory => "binfetch.core.directory"
  | .filesystem => "binfetch.core.filesystem"
  | .cache => "binfetch.install.cache"
  | .installer => "binfetch.install.installer"
  | .commandLine => "binfetch.cli.parser"
  | .context => "binfetch.cli.utils"
  | .installCommand => "binfetch.cli.commands.install"
  | .targetCommand => "binfetch.cli.commands.target"
  | .pathCommand => "binfetch.cli.commands.path"
  | .cleanCommand => "binfetch.cli.commands.clean"

/-- One entry of the journal. -/
structure Record where
  level : Level
  source : Source
  text : String
  details : Bool
  deriving DecidableEq

/-! ### Showing a journal -/

/-- How much of a journal is shown. -/
inductive Verbosity where
  | verbose
  | normal
  | quiet
  deriving DecidableEq

/-- The least level that is shown. -/
def Verbosity.threshold : Verbosity → Level
  | .verbose => .debug
  | .normal => .info
  | .quiet => .error

/-- The record is shown. -/
def Verbosity.shows (v : Verbosity) (r : Record) : Bool := v.threshold.rank ≤ r.level.rank

/-- The line of a record, without its details. -/
def Verbosity.line (v : Verbosity) (r : Record) : String :=
  match v with
  | .verbose => s!"{r.level.label} [{r.source.label}] {r.text}"
  | .normal => r.text
  | .quiet => s!"{r.level.label}: {r.text}"

/-- The line that stands for the details of a failure. -/
def detailsLine : String := "<traceback>\n"

/-- The text of a journal. -/
def Verbosity.render (v : Verbosity) (journal : List Record) : String :=
  String.join ((journal.filter v.shows).map fun r =>
    v.line r ++ "\n" ++ (if r.details then detailsLine else ""))

end ReleaseFetch
