/-
**Values of the JSON format.**

Main definitions:

* `ReleaseFetch.Json.Value` — the values; a number is an integer or a double-precision number, and
  a `loose` string is one that holds halves of pairs;
* `ReleaseFetch.Json.Value.field?` — a field of an object.
-/

import ReleaseFetch.Number.Binary64
import ReleaseFetch.Text.Glyph

set_option autoImplicit false

namespace ReleaseFetch.Json

/-- A value of the format. -/
inductive Value where
  | null
  | bool (b : Bool)
  | integer (n : Int)
  | real (x : Binary64)
  | string (s : String)
  | loose (gs : List Text.Glyph)
  | array (items : List Value)
  | object (fields : List (String × Value))

/-- The string of glyphs. -/
def Value.ofGlyphs (gs : List Text.Glyph) : Value :=
  match Text.charsOf? gs with
  | some cs => .string (String.ofList cs)
  | none => .loose gs

/-- The field of an object; `none` for other values too. -/
def Value.field? (v : Value) (name : String) : Option Value :=
  match v with
  | .object fields => fields.lookup name
  | _ => none

/-- The text of a string value. -/
def Value.text? : Value → Option String
  | .string s => some s
  | _ => none

end ReleaseFetch.Json
