/-
**Tags.**

A tag says what a node is.  A plain scalar without a tag gets one by its form: the words for truth
and for nothing, integers in four notations and to the base sixty, decimals, dates and times.  All
else is text.  One line feed at the end is not part of the form.

Main definitions:

* `ReleaseFetch.Yaml.Tag`, `ReleaseFetch.Yaml.Tag.ofText` — the tags and their full names;
* `ReleaseFetch.Yaml.Tag.ofForm` — the tag of a scalar by its form;
* `ReleaseFetch.Yaml.TimeParts` — a date or time cut into its digits.
-/

import ReleaseFetch.Text.Glyph
import ReleaseFetch.Text.Split
import ReleaseFetch.Url.Address

set_option autoImplicit false

namespace ReleaseFetch.Yaml

open Text

/-- What a node is. -/
inductive Tag where
  | str
  | int
  | float
  | bool
  | null
  | binary
  | timestamp
  | seq
  | map
  | set
  | omap
  | pairs
  | merge
  | value
  | other
  deriving DecidableEq

namespace Tag

/-- The tags with a meaning, by the last part of their names. -/
def named : List (String × Tag) :=
  [("str", .str), ("int", .int), ("float", .float), ("bool", .bool), ("null", .null),
   ("binary", .binary), ("timestamp", .timestamp), ("seq", .seq), ("map", .map), ("set", .set),
   ("omap", .omap), ("pairs", .pairs), ("merge", .merge), ("value", .value)]

/-- The front of the names of tags with a meaning. -/
def family : String := "tag:yaml.org,2002:"

/-- The tag of a full name. -/
def ofText (name : String) : Tag :=
  ((named.find? fun t => family ++ t.1 == name).map (·.2)).getD .other

/-! ### Forms of plain scalars -/

/-- The words for truth. -/
def truths : List String := ["yes", "Yes", "YES", "true", "True", "TRUE", "on", "On", "ON"]

/-- The words for falsehood. -/
def falsehoods : List String := ["no", "No", "NO", "false", "False", "FALSE", "off", "Off", "OFF"]

/-- The words for nothing. -/
def nothings : List String := ["~", "null", "Null", "NULL"]

/-- A digit `0` to `9`. -/
def isDigit (c : Char) : Bool := '0' ≤ c && c ≤ '9'

/-- A digit or an underscore. -/
def isDigitOrGap (c : Char) : Bool := isDigit c || c == '_'

/-- The text after a sign, if there is one. -/
def withoutSign : List Char → List Char
  | '-' :: rest => rest
  | '+' :: rest => rest
  | cs => cs

/-- The text without a line feed at its end. -/
def withoutLastBreak (cs : List Char) : List Char :=
  if cs.getLast? == some '\n' then cs.dropLast else cs

/-- At least one character, all of a class. -/
def isRun (p : Char → Bool) (cs : List Char) : Bool := !cs.isEmpty && cs.all p

/-- A digit, and then digits and underscores. -/
def isWhole (cs : List Char) : Bool := (cs.head?.map isDigit).getD false && cs.all isDigitOrGap

/-- A place of a number to the base sixty: up to 59. -/
def isSixtieth : List Char → Bool
  | [a] => isDigit a
  | [a, b] => '0' ≤ a && a ≤ '5' && isDigit b
  | _ => false

/-- A whole number and one place or more to the base sixty. -/
def isBaseSixty (cs : List Char) : Bool :=
  match pieces ':' cs with
  | first :: second :: more => isWhole first && (second :: more).all isSixtieth
  | _ => false

/-- The form of an integer. -/
def isInteger (cs : List Char) : Bool :=
  match withoutSign cs with
  | '0' :: 'b' :: rest => isRun (fun c => c == '0' || c == '1' || c == '_') rest
  | '0' :: 'x' :: rest => isRun (fun c => Url.isHexDigit c || c == '_') rest
  | ['0'] => true
  | '0' :: rest => isRun (fun c => ('0' ≤ c && c ≤ '7') || c == '_') rest
  | body => isWhole body || isBaseSixty body

/-- The form of an exponent: it needs a sign. -/
def isExponent : List Char → Bool
  | e :: s :: rest => (e == 'e' || e == 'E') && (s == '+' || s == '-') && isRun isDigit rest
  | _ => false

/-- Digits and underscores, and then an exponent or nothing. -/
def isFraction (cs : List Char) : Bool :=
  let after := cs.dropWhile isDigitOrGap
  after.isEmpty || isExponent after

/-- The form of a decimal. -/
def isDecimal (cs : List Char) : Bool :=
  match cutFirst? '.' (withoutSign cs) with
  | none => false
  | some (whole, fraction) =>
    if whole.isEmpty then
      [['i', 'n', 'f'], ['I', 'n', 'f'], ['I', 'N', 'F']].contains fraction ||
        (cs.head? == some '.' &&
          ([['n', 'a', 'n'], ['N', 'a', 'N'], ['N', 'A', 'N']].contains fraction ||
            ((fraction.head?.map isDigit).getD false && isFraction fraction)))
    else
      (isWhole whole && isFraction fraction) || (isBaseSixty whole && fraction.all isDigitOrGap)

end Tag

/-! ### Dates and times -/

/-- An offset: its sign and its digits. -/
structure OffsetParts where
  negative : Bool
  hour : List Char
  minute : List Char

/-- The digits of a time of day; the offset is absent, zero, or given. -/
structure ClockParts where
  hour : List Char
  minute : List Char
  second : List Char
  fraction : List Char
  universal : Bool
  offset : Option OffsetParts

/-- The digits of a date, and of a time if there is one. -/
structure TimeParts where
  year : List Char
  month : List Char
  day : List Char
  clock : Option ClockParts

namespace TimeParts

/-- Between `least` and `most` digits. -/
def someDigits (least most : Nat) (cs : List Char) : Option (List Char × List Char) :=
  let ds := (cs.take most).takeWhile Tag.isDigit
  if ds.length < least then none else some (ds, cs.drop ds.length)

/-- One given character. -/
def mark (c : Char) : List Char → Option (List Char)
  | x :: rest => if x = c then some rest else none
  | [] => none

/-- A space or a tab. -/
def isGap (c : Char) : Bool := c == ' ' || c == '\t'

/-- The offset at the end of a time, or nothing. -/
def offsetOf (cs : List Char) : Option (Bool × Option OffsetParts) :=
  if cs.isEmpty then some (false, none)
  else match cs.dropWhile isGap with
    | ['Z'] => some (true, none)
    | s :: rest =>
      if s == '+' || s == '-' then do
        let (hour, rest) ← someDigits 1 2 rest
        if rest.isEmpty then return (false, some ⟨s == '-', hour, []⟩)
        let (minute, rest) ← someDigits 2 2 (← mark ':' rest)
        if rest.isEmpty then return (false, some ⟨s == '-', hour, minute⟩) else none
      else none
    | [] => none

/-- The time of day. -/
def clockOf (cs : List Char) : Option ClockParts := do
  let (hour, rest) ← someDigits 1 2 cs
  let (minute, rest) ← someDigits 2 2 (← mark ':' rest)
  let (second, rest) ← someDigits 2 2 (← mark ':' rest)
  let (fraction, rest) := match rest with
    | '.' :: r => (r.takeWhile Tag.isDigit, r.dropWhile Tag.isDigit)
    | r => ([], r)
  let (universal, offset) ← offsetOf rest
  return ⟨hour, minute, second, fraction, universal, offset⟩

/-- What stands between a date and a time is dropped: a letter, or blanks. -/
def afterDate : List Char → Option (List Char)
  | c :: rest =>
    if c == 'T' || c == 't' then some rest
    else if isGap c then some (rest.dropWhile isGap)
    else none
  | [] => none

/-- The parts of a form, if it is that of a date or a time. -/
def ofForm (cs : List Char) : Option TimeParts := do
  let (year, rest) ← someDigits 4 4 cs
  let (month, rest) ← someDigits 1 2 (← mark '-' rest)
  let (day, rest) ← someDigits 1 2 (← mark '-' rest)
  if rest.isEmpty then return ⟨year, month, day, none⟩
  let clock ← clockOf (← afterDate rest)
  return ⟨year, month, day, some clock⟩

/-- The parts of a text, if it has the form of a date or a time. -/
def ofChars (cs : List Char) : Option TimeParts := ofForm (Tag.withoutLastBreak cs)

/-- A date without a time is taken for one only if month and day have two digits. -/
def isUnmistakable (t : TimeParts) : Bool :=
  t.clock.isSome || (t.month.length == 2 && t.day.length == 2)

end TimeParts

/-- The tag that goes with a form, which is not that of an empty text. -/
def Tag.ofForm (form : List Char) : Tag :=
  let s := String.ofList form
  if truths.contains s || falsehoods.contains s then .bool
  else if isDecimal form then .float
  else if isInteger form then .int
  else if s == "<<" then .merge
  else if nothings.contains s then .null
  else if ((TimeParts.ofForm form).map (·.isUnmistakable)).getD false then .timestamp
  else if s == "=" then .value
  else if s == "!" || s == "&" || s == "*" then .other
  else .str

/-- The tag of a plain scalar: an empty text is nothing, and a text with halves of pairs is just a
text. -/
def Tag.ofPlain (gs : List Glyph) : Tag :=
  match charsOf? gs with
  | none => .str
  | some [] => .null
  | some cs =>
    let form := withoutLastBreak cs
    if form.isEmpty then .str else .ofForm form

end ReleaseFetch.Yaml
