/-
**Putting a configuration together.**

Settings come in layers: the defaults, then a configuration file, then environment variables, each
over the one before.  Only the values that are left at the end are checked, so a value that a
variable overrides can be anything.  A key that is no setting is refused.

Main definitions:

* `ReleaseFetch.Settings.override` — variables laid over the settings of a file;
* `ReleaseFetch.Settings.refusal` — what is said of keys that are no settings;
* `ReleaseFetch.Settings.build` — a configuration of checked values;
* `ReleaseFetch.Settings.load` — the configuration of a run.
-/

import ReleaseFetch.Settings.File
import ReleaseFetch.Settings.Rule

set_option autoImplicit false

namespace ReleaseFetch.Settings

open Session

/-! ### Variables -/

/-- The variables that override settings. -/
def overrides : List (String × Key) :=
  [("BINFETCH_VERSION", .version), ("BINFETCH_BIN_DIR", .binDir),
   ("BINFETCH_CACHE_DIR", .cacheDir)]

/-- The variables that are set and not empty, with their values. -/
def activeOverrides (h : Host) : List (String × Key × String) :=
  overrides.filterMap fun (name, key) => (h.nonEmpty? name).map fun v => (name, key, v)

/-- Lays values over the settings of a file. -/
def override (active : List (String × Key × String)) (entries : ConfigFile.Entries) :
    ConfigFile.Entries :=
  active.foldl (fun acc (_, key, v) => Yaml.insert (.text key.name) (.text v) acc) entries

/-! ### Keys that are no settings -/

/-- The setting that a key names. -/
def keyOf? : Yaml.Value → Option Key
  | .text s => Key.ofName? s
  | _ => none

/-- The number that a key is. -/
def numberOf? : Yaml.Value → Option Binary64
  | .real x => some x
  | v => v.wholeNumber?.map fun n => .finite (n < 0) n.natAbs 0

/-- Why two keys have no order; dates and moments say it in words of their own. -/
def orderFault? (a b : Yaml.Value) : Option String :=
  match numberOf? a, numberOf? b with
  | some _, some _ => none
  | _, _ =>
    match a, b with
    | .text _, .text _ | .text _, .loose _ | .loose _, .text _ | .loose _, .loose _ => none
    | .bytes _, .bytes _ | .date _, .date _ => none
    | .date _, .moment _ | .moment _, .date _ =>
      some "can't compare datetime.datetime to datetime.date"
    | .moment m, .moment n =>
      if m.offset.isSome == n.offset.isSome then none
      else some "can't compare offset-naive and offset-aware datetimes"
    | _, _ => some s!"'<' not supported between instances of '{b.fullKind}' and '{a.fullKind}'"

/-- What is said of the first two neighbours without an order. -/
def unorderedFault? : List Yaml.Value → Option String
  | a :: b :: rest => (orderFault? a b).or (unorderedFault? (b :: rest))
  | _ => none

/-- The text of a key. -/
def textOf? : Yaml.Value → Option String
  | .text s => some s
  | .loose gs => some (String.ofList (Text.visibleChars gs))
  | _ => none

/-- The smaller of two keys, the first one where they have no order as numbers. -/
def smaller (a b : Yaml.Value) : Yaml.Value :=
  match numberOf? a, numberOf? b with
  | some x, some y => if y.lt x then b else a
  | _, _ => a

/-- What is said of keys that are no settings: their names in order, if they are texts. -/
def refusal (first : Yaml.Value) (rest : List Yaml.Value) : Failure :=
  match (first :: rest).mapM textOf? with
  | some names =>
    let sorted := names.mergeSort fun a b => a ≤ b
    .problem (.config ("Unknown configuration keys: " ++ Text.join ", " sorted))
  | none =>
    match unorderedFault? (first :: rest) with
    | some text => .value .type text
    | none =>
      let least := rest.foldl smaller first
      .value .type s!"sequence item 0: expected str instance, {least.fullKind} found"

/-! ### Configurations -/

/-- The configuration with one more setting. -/
def apply (s : Site) (c : Config) (key : Key) (v : Yaml.Value) : Except Failure Config :=
  match key.rule.check s.home? key.name v with
  | .ok setting => .ok (c.set key setting)
  | .error f => .error f

/-- The configuration of settings: each is checked, in order. -/
def build (s : Site) (settings : List (Key × Yaml.Value)) : Except Failure Config :=
  settings.foldlM (fun c (key, v) => apply s c key v) (Config.standard s)

/-- The configuration of entries: keys that are no settings are refused first. -/
def ofEntries (s : Site) (entries : ConfigFile.Entries) : Except Failure Config :=
  match (entries.map (·.1)).filter fun k => (keyOf? k).isNone with
  | first :: rest => .error (refusal first rest)
  | [] => build s (entries.filterMap fun (k, v) => (keyOf? k).map (·, v))

/-! ### Loading -/

/-- The configuration file that is used where none is named. -/
def defaultFile : String := "binfetch.yaml"

/-- The configuration file: one that is named has to be there, the default one may be missing. -/
def file? : Option Path → Session (Option Path)
  | some p => do
    if ← look (·.exists? p) then return some p
    else fail (.config s!"Configuration file not found: {p.text}")
  | none => do
    let p := (← look (·.workingPath)).child defaultFile
    return if ← look (·.exists? p) then some p else none

/-- The settings of the configuration file. -/
def entriesOf : Option Path → Session ConfigFile.Entries
  | none => return []
  | some p => do
    log .debug .settings s!"Loading configuration from {p.text}"
    ConfigFile.load p

/-- Notes in the journal which settings are overridden. -/
def noteOverrides : List (String × Key × String) → Session Unit
  | [] => pure ()
  | (name, key, _) :: rest => do
    log .debug .settings s!"{name} overrides '{key.name}'"
    noteOverrides rest

/-- The configuration of a run. -/
def load (s : Site) (h : Host) (file : Option Path) : Session Config := do
  let entries ← entriesOf (← file? file)
  noteOverrides (activeOverrides h)
  give (ofEntries s (override (activeOverrides h) entries))

end ReleaseFetch.Settings
