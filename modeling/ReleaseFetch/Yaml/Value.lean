/-
**Values of a configuration file.**

A value is what a configuration file can hold, or a path, which only a caller can give.  A
collection may hold itself; where a value comes to a collection that it is in the middle of, it
says so and goes no further.

Main definitions:

* `ReleaseFetch.Yaml.Value` — the values;
* `ReleaseFetch.Yaml.Value.isSameKey` — when two values are the same key of a mapping: numbers by
  size, whatever their kind, and all else by kind and content;
* `ReleaseFetch.Yaml.insert` — an entry added to a mapping;
* `ReleaseFetch.Yaml.Value.shown` — a value as it is named in a message;
* `ReleaseFetch.Yaml.Value.isUnwritable` — a value that holds an integer too long to be written;
* `ReleaseFetch.Yaml.Value.kind` — the word for the kind of a value.
-/

import ReleaseFetch.Number.Numeral
import ReleaseFetch.Number.Residue
import ReleaseFetch.Number.Shortest
import ReleaseFetch.Path
import ReleaseFetch.Text.Glyph
import ReleaseFetch.Yaml.Calendar

set_option autoImplicit false

namespace ReleaseFetch.Yaml

/-- A value.  A `loose` text holds halves of pairs; `enclosing` stands for a list or a mapping that
the value is inside of. -/
inductive Value where
  | null
  | bool (b : Bool)
  | integer (n : Int)
  | real (x : Binary64)
  | text (s : String)
  | loose (gs : List Text.Glyph)
  | path (p : Path)
  | bytes (bs : List UInt8)
  | date (d : Date)
  | moment (m : Moment)
  | list (items : List Value)
  | pair (first second : Value)
  | mapping (entries : List (Value × Value))
  | set (members : List Value)
  | enclosing (isMapping : Bool)

namespace Value

/-- The value of a text. -/
def ofGlyphs (gs : List Text.Glyph) : Value :=
  match Text.charsOf? gs with
  | some cs => .text (String.ofList cs)
  | none => .loose gs

/-! ### Keys -/

/-- The number that a value is, if it is a whole one. -/
def wholeNumber? : Value → Option Int
  | .bool b => some (if b then 1 else 0)
  | .integer n => some n
  | .real x => x.toInt?
  | _ => none

/-- The two values are the same key. -/
def isSameKey (a b : Value) : Bool :=
  match a.wholeNumber?, b.wholeNumber? with
  | some m, some n => m == n
  | none, none =>
    match a, b with
    | .null, .null => true
    | .real x, .real y => x == y
    | .text s, .text t => s == t
    | .loose s, .loose t => s == t
    | .path p, .path q => p == q
    | .bytes s, .bytes t => s == t
    | .date s, .date t => s == t
    | .moment s, .moment t => s.isSame t
    | _, _ => false
  | _, _ => false

/-! ### In messages -/

/-- The word for the kind of a value. -/
def kind : Value → String
  | .null => "NoneType"
  | .bool _ => "bool"
  | .integer _ => "int"
  | .real _ => "float"
  | .text _ | .loose _ => "str"
  | .path _ => "PosixPath"
  | .bytes _ => "bytes"
  | .date _ => "date"
  | .moment _ => "datetime"
  | .list _ => "list"
  | .pair .. => "tuple"
  | .mapping _ => "dict"
  | .set _ => "set"
  | .enclosing isMapping => if isMapping then "dict" else "list"

/-- The word for the kind of a value, where dates carry the name of the calendar. -/
def fullKind : Value → String
  | .date _ => "datetime.date"
  | .moment _ => "datetime.datetime"
  | v => v.kind

/-- The residue of a number. -/
def residue? : Value → Option Int
  | .real x => Residue.ofReal x
  | v => v.wholeNumber?.map Residue.ofInt

/-- The members of a set in the order in which they are named, each given with a text: numbers by
their places in a table, others as they came. -/
def memberOrder (members : List Value) (texts : List String) : List String :=
  match members.mapM residue? with
  | some residues => Residue.order (residues.zip texts)
  | none => texts

mutual

/-- The value as it is named in a message. -/
def shown : Value → String
  | .null => "None"
  | .bool b => if b then "True" else "False"
  | .integer n => toString n
  | .real x => x.text
  | .text s => Text.quoted s
  | .loose gs => Text.quotedGlyphs gs
  | .path p => p.shown
  | .bytes bs => Text.quotedBytes bs
  | .date d => d.shown
  | .moment m => m.shown
  | .list items => "[" ++ Text.join ", " (shownItems items) ++ "]"
  | .pair a b => "(" ++ shown a ++ ", " ++ shown b ++ ")"
  | .mapping entries => "\x7b" ++ Text.join ", " (shownEntries entries) ++ "\x7d"
  | .set [] => "set()"
  | .set members =>
    "\x7b" ++ Text.join ", " (memberOrder members (shownItems members)) ++ "\x7d"
  | .enclosing isMapping => if isMapping then "\x7b...\x7d" else "[...]"

/-- The items as they are named in a message. -/
def shownItems : List Value → List String
  | [] => []
  | v :: rest => shown v :: shownItems rest

/-- The entries as they are named in a message. -/
def shownEntries : List (Value × Value) → List String
  | [] => []
  | (k, v) :: rest => (shown k ++ ": " ++ shown v) :: shownEntries rest

end

mutual

/-- The value holds an integer that is too long to be written. -/
def isUnwritable : Value → Bool
  | .integer n => !Numeral.isWritable n
  | .list items => anyUnwritable items
  | .pair a b => isUnwritable a || isUnwritable b
  | .mapping entries => anyEntryUnwritable entries
  | .set members => anyUnwritable members
  | _ => false

/-- One of the items holds such an integer. -/
def anyUnwritable : List Value → Bool
  | [] => false
  | v :: rest => isUnwritable v || anyUnwritable rest

/-- One of the entries holds such an integer. -/
def anyEntryUnwritable : List (Value × Value) → Bool
  | [] => false
  | (k, v) :: rest => isUnwritable k || isUnwritable v || anyEntryUnwritable rest

end

/-- The value counts as nothing: it is absent, false, zero or empty. -/
def isNothing : Value → Bool
  | .null => true
  | .bool b => !b
  | .integer n => n == 0
  | .real x => x.isZero
  | .text s => s.isEmpty
  | .bytes bs => bs.isEmpty
  | .list items => items.isEmpty
  | .mapping entries => entries.isEmpty
  | .set members => members.isEmpty
  | .loose _ | .path _ | .date _ | .moment _ | .pair .. | .enclosing _ => false

end Value

/-- Adds an entry: a key that is there keeps its place and gets the new value. -/
def insert (key v : Value) : List (Value × Value) → List (Value × Value)
  | [] => [(key, v)]
  | (k, w) :: rest => if k.isSameKey key then (k, v) :: rest else (k, w) :: insert key v rest

/-- The value of the entry whose key is a text. -/
def lookupText (name : String) : List (Value × Value) → Option Value
  | [] => none
  | (k, v) :: rest =>
    match k with
    | .text s => if s = name then some v else lookupText name rest
    | _ => lookupText name rest

end ReleaseFetch.Yaml
