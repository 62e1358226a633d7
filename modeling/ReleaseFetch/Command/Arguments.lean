/-
**The commands and their options.**

The program has options of its own, which come before the command, and every command has options
that come after it.  Words that nothing takes are refused together at the end.

Main definitions:

* `ReleaseFetch.CommandLine.Command`, `ReleaseFetch.CommandLine.Arguments` — what a command line
  asks for;
* `ReleaseFetch.CommandLine.helpText` — what is printed where no command is named;
* `ReleaseFetch.CommandLine.Arguments.parse` — the meaning of a command line.
-/

import ReleaseFetch.Command.Grammar
import ReleaseFetch.Journal
import ReleaseFetch.Settings.Config

set_option autoImplicit false

namespace ReleaseFetch.CommandLine

/-! ### What is asked for -/

/-- The options of an installation. -/
structure InstallOptions where
  force : Bool
  release : Value
  target : Value
  arch : Value
  binDir : Value
  deriving DecidableEq

/-- The options of a question for the target. -/
structure TargetOptions where
  arch : Value
  list : Bool
  deriving DecidableEq

/-- The commands. -/
inductive Command where
  | install (o : InstallOptions)
  | target (o : TargetOptions)
  | path
  | clean
  deriving DecidableEq

/-- The name of a command. -/
def Command.name : Command → String
  | .install _ => "install"
  | .target _ => "target"
  | .path => "path"
  | .clean => "clean"

/-- The options of the program. -/
structure GeneralOptions where
  verbose : Bool
  quiet : Bool
  config : Value
  deriving DecidableEq

/-- What a command line asks for. -/
structure Arguments where
  general : GeneralOptions
  command : Option Command
  deriving DecidableEq

/-- How much of the journal is shown. -/
def GeneralOptions.verbosity (o : GeneralOptions) : Verbosity :=
  if o.verbose then .verbose else if o.quiet then .quiet else .normal

/-! ### Texts -/

/-- Lines of text. -/
def lines (ls : List String) : String := String.join (ls.map (· ++ "\n"))

/-- The usage of the program. -/
def usageText : String :=
  lines [
    "usage: binfetch [-h] [--version] [--verbose] [--quiet] [--config PATH]",
    "                COMMAND ..."]

/-- The help of the program. -/
def helpText : String :=
  usageText ++ lines [
    "",
    "binfetch - install a prebuilt CLI binary from GitHub releases",
    "",
    "positional arguments:",
    "  COMMAND        Available commands",
    "    install      Download and install the binary",
    "    target       Print the release target for this host",
    "    path         Print the installed binary path",
    "    clean        Delete cached downloads",
    "",
    "options:",
    "  -h, --help     show this help message and exit",
    "  --version      show program's version number and exit",
    "  --verbose, -v  Enable verbose output",
    "  --quiet, -q    Enable minimal output (errors only)",
    "  --config PATH  Path to configuration file (default: ./binfetch.yaml)",
    "",
    "Use \"binfetch COMMAND --help\" for command-specific help"]

/-- The usage of an installation. -/
def installUsage : String :=
  lines [
    "usage: binfetch install [-h] [--force] [--release TAG] [--target TARGET]",
    "                        [--arch ARCH] [--bin-dir PATH]"]

/-- The help of an installation. -/
def installHelp : String :=
  installUsage ++ lines [
    "",
    "Download the release asset for this platform and install it",
    "",
    "options:",
    "  -h, --help       show this help message and exit",
    "  --force          Ignore cached downloads",
    "  --release TAG    Release tag to install (default: from config)",
    "  --target TARGET  Release target (default: detected from this host)",
    "  --arch ARCH      Architecture to resolve the target for (e.g. x64, arm64)",
    "  --bin-dir PATH   Directory to install the binary into (default: from config)"]

/-- The usage of a question for the target. -/
def targetUsage : String := lines ["usage: binfetch target [-h] [--arch ARCH] [--list]"]

/-- The help of a question for the target. -/
def targetHelp : String :=
  targetUsage ++ lines [
    "",
    "Print the release target resolved for this host",
    "",
    "options:",
    "  -h, --help   show this help message and exit",
    "  --arch ARCH  Architecture to resolve the target for (e.g. x64, arm64)",
    "  --list       List every supported target instead"]

/-- The usage of a question for the path. -/
def pathUsage : String := lines ["usage: binfetch path [-h]"]

/-- The help of a question for the path. -/
def pathHelp : String :=
  pathUsage ++ lines [
    "",
    "Print the path of the installed binary; fails if missing",
    "",
    "options:",
    "  -h, --help  show this help message and exit"]

/-- The usage of a cleaning. -/
def cleanUsage : String := lines ["usage: binfetch clean [-h]"]

/-- The help of a cleaning. -/
def cleanHelp : String :=
  cleanUsage ++ lines [
    "",
    "Delete the download cache directory",
    "",
    "options:",
    "  -h, --help  show this help message and exit"]

/-! ### Options -/

/-- The option that asks for help. -/
def helpOption {σ : Type} (text : String) : Opt σ := ⟨["-h", "--help"], .print text⟩

/-- The options of the program. -/
def generalGrammar : Grammar GeneralOptions where
  program := "binfetch"
  usage := usageText
  options := [
    helpOption helpText,
    ⟨["--version"], .print s!"binfetch {packageVersion}\n"⟩,
    ⟨["--verbose", "-v"], .mark fun o => { o with verbose := true }⟩,
    ⟨["--quiet", "-q"], .mark fun o => { o with quiet := true }⟩,
    ⟨["--config"], .take fun v o => { o with config := v }⟩]

/-- The options of an installation. -/
def installGrammar : Grammar InstallOptions where
  program := "binfetch install"
  usage := installUsage
  options := [
    helpOption installHelp,
    ⟨["--force"], .mark fun o => { o with force := true }⟩,
    ⟨["--release"], .take fun v o => { o with release := v }⟩,
    ⟨["--target"], .take fun v o => { o with target := v }⟩,
    ⟨["--arch"], .take fun v o => { o with arch := v }⟩,
    ⟨["--bin-dir"], .take fun v o => { o with binDir := v }⟩]

/-- The options of a question for the target. -/
def targetGrammar : Grammar TargetOptions where
  program := "binfetch target"
  usage := targetUsage
  options := [
    helpOption targetHelp,
    ⟨["--arch"], .take fun v o => { o with arch := v }⟩,
    ⟨["--list"], .mark fun o => { o with list := true }⟩]

/-- The options of a question for the path. -/
def pathGrammar : Grammar Unit := ⟨"binfetch path", pathUsage, [helpOption pathHelp]⟩

/-- The options of a cleaning. -/
def cleanGrammar : Grammar Unit := ⟨"binfetch clean", cleanUsage, [helpOption cleanHelp]⟩

/-! ### Meaning -/

/-- The names of the commands. -/
def commandNames : List String := ["install", "target", "path", "clean"]

/-- The command of a name and the words after it, with what is left over of them. -/
def parseCommand (name : String) (words : List String) :
    Except Ending (Command × List String) := do
  match name with
  | "install" =>
    let p ← installGrammar.parse false words ⟨false, .absent, .absent, .absent, .absent⟩
    return (.install p.choices, p.left)
  | "target" =>
    let p ← targetGrammar.parse false words ⟨.absent, false⟩
    return (.target p.choices, p.left)
  | "path" => return (.path, (← pathGrammar.parse false words ()).left)
  | "clean" => return (.clean, (← cleanGrammar.parse false words ()).left)
  | other =>
    let choices := Text.join ", " (commandNames.map Text.quoted)
    generalGrammar.refuse
      s!"argument COMMAND: invalid choice: {Text.quoted other} (choose from {choices})"

/-- Refuses words that nothing has taken. -/
def refuseLeft (left : List String) (a : Arguments) : Except Ending Arguments :=
  if left.isEmpty then .ok a
  else generalGrammar.refuse ("unrecognized arguments: " ++ Text.join " " left)

/-- What a command line asks for. -/
def Arguments.parse (words : List String) : Except Ending Arguments := do
  let p ← generalGrammar.parse true words ⟨false, false, .absent⟩
  match p.command with
  | [] => refuseLeft p.left ⟨p.choices, none⟩
  | name :: rest => do
    let (command, left) ← parseCommand name rest
    refuseLeft (p.left ++ left) ⟨p.choices, some command⟩

end ReleaseFetch.CommandLine
