/-
**What a setting accepts.**

A configuration file may hold values of any kind, and a variable is always a text.  Every setting
has a rule: paths are texts, with a leading tilde replaced; a count is an integer, possibly written
as text, that is not negative; a number of seconds is positive; everything else is a text that is
not empty.  A setting holds characters only.  Where its text has halves of pairs, marks stand for
these, such that no name is made of the setting where none could be made of the text.

Main definitions:

* `ReleaseFetch.Setting` — a value after it is checked;
* `ReleaseFetch.Key`, `ReleaseFetch.Rule` — the settings and their rules;
* `ReleaseFetch.Rule.held`, `ReleaseFetch.Rule.pathOf?` — the text and the path of a value;
* `ReleaseFetch.Rule.expand` — a path with its tilde replaced;
* `ReleaseFetch.Rule.check` — a value checked by a rule.
-/

import ReleaseFetch.Number.Numeral
import ReleaseFetch.Settings.Config
import ReleaseFetch.Yaml.Value

set_option autoImplicit false

namespace ReleaseFetch

/-! ### Values -/

/-- A value that a setting has taken. -/
inductive Setting where
  | unset
  | text (s : String)
  | path (p : Path)
  | count (n : Nat)
  | seconds (x : Binary64)
  deriving DecidableEq

/-! ### Keys -/

/-- The settings. -/
inductive Key where
  | toolName
  | repo
  | version
  | apiHost
  | userAgent
  | binDir
  | cacheDir
  | maxRedirects
  | timeout
  deriving DecidableEq

namespace Key

/-- All settings. -/
def all : List Key :=
  [.toolName, .repo, .version, .apiHost, .userAgent, .binDir, .cacheDir, .maxRedirects, .timeout]

/-- The name of a setting. -/
def name : Key → String
  | .toolName => "tool_name"
  | .repo => "repo"
  | .version => "version"
  | .apiHost => "api_host"
  | .userAgent => "user_agent"
  | .binDir => "bin_dir"
  | .cacheDir => "cache_dir"
  | .maxRedirects => "max_redirects"
  | .timeout => "timeout"

/-- The setting of a name. -/
def ofName? (s : String) : Option Key := all.find? fun k => k.name == s

end Key

/-! ### Rules -/

/-- The rule of a setting. -/
inductive Rule where
  | text
  | path (mayBeUnset : Bool)
  | count
  | seconds
  deriving DecidableEq

/-- The rule of a setting. -/
def Key.rule : Key → Rule
  | .binDir => .path false
  | .cacheDir => .path true
  | .maxRedirects => .count
  | .timeout => .seconds
  | _ => .text

namespace Rule

/-- The rule that goes with a name; a name that is no setting goes with texts. -/
def ofName (s : String) : Rule := ((Key.ofName? s).map Key.rule).getD .text

/-- A value is refused. -/
def refuse {α : Type} (text : String) : Except Failure α := .error (.problem (.config text))

/-- A value is refused, and named.  A value that cannot be written cannot be named. -/
def refuseValue {α : Type} (v : Yaml.Value) (text : String) : Except Failure α :=
  if v.isUnwritable then .error (.badValue Numeral.unwritableText)
  else refuse s!"{text}, got {v.shown}"

/-- The text of a setting with halves. -/
def held (gs : List Text.Glyph) : String := String.ofList (Text.heldChars gs)

/-- The path that a value stands for. -/
def pathOf? : Yaml.Value → Option Path
  | .path p => some p
  | .text s => some (Path.ofText s)
  | .loose gs => some (Path.ofText (held gs))
  | _ => none

/-- The user that a leading tilde of a path names, in glyphs. -/
def userOf? (gs : List Text.Glyph) : Option (List Text.Glyph) :=
  let names := (Text.pieces (.char '/') gs).filter fun n => n != [] && n != [.char '.']
  if gs.head? = some (.char '/') then none
  else
    match names with
    | (.char '~' :: user) :: _ => some user
    | _ => none

/-- The halves that keep a value from naming a user. -/
def strayOf? : Yaml.Value → Option Text.Stray
  | .loose gs => (userOf? gs).bind Text.stray?
  | _ => none

/-- The path of a value with its tilde replaced.  A user is looked up by the bytes of the name,
which no NUL can be among. -/
def expand (home? : String → Option String) (v : Yaml.Value) (p : Path) : Except Failure Setting :=
  match strayOf? v with
  | some stray => .error (.value .encoding stray.text)
  | none =>
    if p.user?.any fun user => user.toList.contains '\x00' then
      .error (.badValue "embedded null byte")
    else
      match p.expandHome? home? with
      | some q => .ok (.path q)
      | none => .error (.value .runtime "Could not determine home directory.")

/-- Checks a path. -/
def checkPath (home? : String → Option String) (mayBeUnset : Bool) (name : String)
    (v : Yaml.Value) : Except Failure Setting :=
  let refused := refuse s!"'{name}' must be a path, got {v.kind}"
  match pathOf? v with
  | some p => expand home? v p
  | none =>
    match v with
    | .null => if mayBeUnset then .ok .unset else refused
    | _ => refused

/-- Checks that an integer is not negative. -/
def natural (name : String) : Int → Except Failure Setting
  | .ofNat n => .ok (.count n)
  | .negSucc _ => refuse s!"'{name}' must not be negative"

/-- Checks a count. -/
def checkCount (name : String) (v : Yaml.Value) : Except Failure Setting :=
  let refused := refuseValue v s!"'{name}' must be an integer"
  match v with
  | .integer n => natural name n
  | .text s =>
    match Numeral.integer 10 s with
    | .ok n => natural name n
    | .error _ => refused
  | _ => refused

/-- Checks that a number is positive; the value that is no number passes. -/
def positive (name : String) (x : Binary64) : Except Failure Setting :=
  if x.isAtMostZero then refuse s!"'{name}' must be positive" else .ok (.seconds x)

/-- The number that an integer becomes. -/
def realOfInt (n : Int) : Except Failure Binary64 :=
  match Binary64.ofInt n with
  | .infinite _ => .error (.value .overflow "int too large to convert to float")
  | x => .ok x

/-- The text of bytes that are all below 128. -/
def plainText? (bs : List UInt8) : Option String :=
  if bs.all (· < 0x80) then some (String.ofList (bs.map fun b => Char.ofNat b.toNat)) else none

/-- Checks a number of seconds. -/
def checkSeconds (name : String) (v : Yaml.Value) : Except Failure Setting :=
  let refused := refuseValue v s!"'{name}' must be a number"
  let read (s : Option String) :=
    match s.bind Numeral.real? with
    | some x => positive name x
    | none => refused
  match v with
  | .null => .ok .unset
  | .integer n =>
    match realOfInt n with
    | .ok x => positive name x
    | .error f => .error f
  | .real x => positive name x
  | .text s => read (some s)
  | .bytes bs => read (plainText? bs)
  | _ => refused

/-- Checks a text. -/
def checkText (name : String) (v : Yaml.Value) : Except Failure Setting :=
  let refused := refuseValue v s!"'{name}' must be a non-empty string"
  match v with
  | .text s => if s.isEmpty then refused else .ok (.text s)
  | .loose gs => if gs.isEmpty then refused else .ok (.text (held gs))
  | _ => refused

/-- Checks the value of a setting. -/
def check (home? : String → Option String) (name : String) :
    Rule → Yaml.Value → Except Failure Setting
  | .text => checkText name
  | .path mayBeUnset => checkPath home? mayBeUnset name
  | .count => checkCount name
  | .seconds => checkSeconds name

end Rule

/-- Sets a setting; a value of another kind than the setting takes changes nothing. -/
def Config.set (c : Config) : Key → Setting → Config
  | .toolName, .text s => { c with toolName := s }
  | .repo, .text s => { c with repo := s }
  | .version, .text s => { c with version := s }
  | .apiHost, .text s => { c with apiHost := s }
  | .userAgent, .text s => { c with userAgent := s }
  | .binDir, .path p => { c with binDir := p }
  | .cacheDir, .path p => { c with cacheDir := some p }
  | .cacheDir, .unset => { c with cacheDir := none }
  | .maxRedirects, .count n => { c with maxRedirects := n }
  | .timeout, .seconds x => { c with timeout := some (.real x) }
  | .timeout, .unset => { c with timeout := none }
  | _, _ => c

end ReleaseFetch
