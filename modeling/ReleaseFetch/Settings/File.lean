/-
**Reading a configuration file.**

A configuration file is text in UTF-8 that holds one mapping.  The settings stand at its top, or
under a key of their own.  The text is fetched page by page, so what is wrong with its first pages
comes before what is wrong with its later bytes.

Main definitions:

* `ReleaseFetch.ConfigFile.source` — the text of a file, as far as it can be read;
* `ReleaseFetch.ConfigFile.settingsOf` — the settings of a document;
* `ReleaseFetch.ConfigFile.load` — the settings of a file, as a step of a run.
-/

import ReleaseFetch.Text.Paged
import ReleaseFetch.World
import ReleaseFetch.Yaml.Document

set_option autoImplicit false

namespace ReleaseFetch.ConfigFile

open Session

/-! ### Text -/

/-- The text of pages that can be read, and the fault that cuts it off: a page with a character
that a text may not hold, or bytes that are no text. -/
def readable (fault : Option Text.Utf8.Fault) : List (List Char) → List Char × Option Yaml.Fault
  | [] => ([], fault.map .encoding)
  | page :: rest =>
    if page.all Yaml.isAllowed then
      let (cs, cut) := readable fault rest
      (page ++ cs, cut)
    else ([], some .malformed)

/-- The text of a file as far as it can be read, and the fault that cuts it off. -/
def source (bytes : List UInt8) : List Char × Option Yaml.Fault :=
  let pages := Text.Paged.read bytes
  readable pages.fault pages.found

/-! ### Settings -/

/-- Keys with their values, in order. -/
abbrev Entries := List (Yaml.Value × Yaml.Value)

/-- The key that settings may stand under. -/
def sectionKey : String := "binfetch"

/-- What is said of a text that is not in the format. -/
def unreadable : String := "<yaml>"

/-- The section of settings among the entries of a document: what stands under its key, or all of
them. -/
def sectionOf (d : Yaml.Document) (entries : List (Yaml.Value × Yaml.Part)) :
    Except Problem (List (Yaml.Value × Yaml.Part)) :=
  match entries.find? fun e => e.1.isSameKey (.text sectionKey) with
  | none => .ok entries
  | some (_, p) =>
    if d.isNothing p then .ok []
    else match d.entries? p with
      | some inner => .ok inner
      | none => .error (.config s!"'{sectionKey}' section must be a mapping")

/-- The settings of a document; `name` is the name of its file. -/
def settingsOf (name : String) (d : Yaml.Document) : Except Problem Entries :=
  match d.root with
  | .leaf .null => .ok []
  | root =>
    match d.entries? root with
    | none => .error (.config s!"Config file {name} must contain a mapping")
    | some entries => do
      let settings ← sectionOf d entries
      return (settings.map (·.1)).zip (d.values (settings.map (·.2)))

/-- The settings of the bytes of a file; `name` is its name. -/
def settingsOfBytes (name : String) (bytes : List UInt8) : Except Failure Entries :=
  let (cs, cut) := source bytes
  match Yaml.Document.ofText cs cut with
  | .error .malformed => .error (.problem (.config s!"Invalid YAML in {name}: {unreadable}"))
  | .error (.value kind text) => .error (.value kind text)
  | .error (.encoding f) => .error (.encoding f)
  | .ok none => .ok []
  | .ok (some d) => (settingsOf name d).mapError .problem

/-- The settings of a file. -/
def load (p : Path) : Session Entries := do
  match ← attempt (look (·.read p)) with
  | .error f =>
    if f.isSystem then fail (.config s!"Cannot read config file {p.text}: {f.message}")
    else throw f
  | .ok bytes => give (settingsOfBytes p.text bytes)

end ReleaseFetch.ConfigFile
