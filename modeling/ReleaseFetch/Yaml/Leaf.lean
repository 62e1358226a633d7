/-
**The value of a scalar.**

A scalar gets its value by its tag.  A text that is not what its tag says is a fault.

Main definitions:

* `ReleaseFetch.Yaml.ofScalar` — the value of a text under a tag;
* `ReleaseFetch.Yaml.integerOf`, `ReleaseFetch.Yaml.realOf`, `ReleaseFetch.Yaml.boolOf`,
  `ReleaseFetch.Yaml.bytesOf`, `ReleaseFetch.Yaml.timeOf` — the values of single tags.
-/

import ReleaseFetch.Number.Numeral
import ReleaseFetch.Yaml.Cursor
import ReleaseFetch.Yaml.Tag
import ReleaseFetch.Yaml.Value

set_option autoImplicit false

namespace ReleaseFetch.Yaml

open Text

/-! ### Numbers -/

/-- What is said of a number without digits. -/
def noDigits : Fault := .value .index "string index out of range"

/-- The text without underscores. -/
def withoutGaps (gs : List Glyph) : List Glyph := gs.filter (· != .char '_')

/-- The sign of a text that is not empty, and what follows it. -/
def signed? : List Glyph → Except Fault (Bool × List Glyph)
  | [] => .error noDigits
  | .char '-' :: rest => .ok (true, rest)
  | .char '+' :: rest => .ok (false, rest)
  | gs => .ok (false, gs)

/-- An integer in a base. -/
def integerIn (base : Nat) (gs : List Glyph) : Except Fault Int :=
  match Numeral.integer base (String.ofList (visibleChars gs)) with
  | .ok n => .ok n
  | .error (.malformed _ base) =>
    .error (.value .value (Numeral.malformedText base (quotedGlyphs gs)))
  | .error f => .error (.value .value f.text)

/-- The integer whose places to the base sixty are given, the first one first. -/
def baseSixty (places : List Int) : Int := places.foldl (fun n p => n * 60 + p) 0

/-- The integer of a text without sign. -/
def unsignedInteger (gs : List Glyph) : Except Fault Int :=
  match gs with
  | [] => .error noDigits
  | [.char '0'] => .ok 0
  | .char '0' :: .char 'b' :: rest => integerIn 2 rest
  | .char '0' :: .char 'x' :: rest => integerIn 16 rest
  | .char '0' :: _ => integerIn 8 gs
  | _ =>
    if gs.contains (.char ':') then do
      return baseSixty (← (pieces (.char ':') gs).mapM (integerIn 10))
    else integerIn 10 gs

/-- The value of an integer. -/
def integerOf (gs : List Glyph) : Except Fault Value := do
  let (negative, body) ← signed? (withoutGaps gs)
  let n ← unsignedInteger body
  return .integer (if negative then -n else n)

/-- A double-precision number. -/
def realIn (gs : List Glyph) : Except Fault Binary64 :=
  match Numeral.real? (String.ofList (visibleChars gs)) with
  | some x => .ok x
  | none => .error (.value .value s!"could not convert string to float: {quotedGlyphs gs}")

/-- What is said of a number that is too large for a power of sixty. -/
def tooLarge : Fault := .value .overflow "int too large to convert to float"

/-- Adds up the places of a number to the base sixty, the last one first; `scale` is the weight of
the next place. -/
def sumPlaces : (scale : Nat) → Binary64 → List Binary64 → Except Fault Binary64
  | _, total, [] => .ok total
  | scale, total, x :: rest =>
    match Binary64.ofInt scale with
    | .infinite _ => .error tooLarge
    | weight => sumPlaces (scale * 60) (total.add (x.mul weight)) rest

/-- The word for infinity. -/
def infinityWord : List Glyph := glyphs ".inf".toList

/-- The word for the value that is no number. -/
def nanWord : List Glyph := glyphs ".nan".toList

/-- The number of a text without sign. -/
def unsignedReal (gs : List Glyph) : Except Fault Binary64 :=
  if gs == infinityWord then .ok (.infinite false)
  else if gs == nanWord then .ok .nan
  else if gs.contains (.char ':') then do
    let places ← (pieces (.char ':') gs).mapM realIn
    sumPlaces 1 (.finite false 0 Binary64.leastExponent) places.reverse
  else realIn gs

/-- The value of a decimal. -/
def realOf (gs : List Glyph) : Except Fault Value := do
  let (negative, body) ← signed? (lowerGlyphs (withoutGaps gs))
  let x ← unsignedReal body
  return .real (if negative then x.negate else x)

/-- The text is that of a value that is no number, and is not the word for it. -/
def isNanByDigits (gs : List Glyph) : Bool :=
  match signed? (lowerGlyphs (withoutGaps gs)) with
  | .ok (_, body) => body != nanWord && (unsignedReal body).toOption == some .nan
  | .error _ => false

/-! ### Words, bytes and times -/

/-- The value of a word for truth or falsehood, in any letter case. -/
def boolOf (gs : List Glyph) : Except Fault Value :=
  let word := lowerGlyphs gs
  let isOf (words : List String) := words.any fun w => glyphs w.toList == word
  if isOf Tag.truths then .ok (.bool true)
  else if isOf Tag.falsehoods then .ok (.bool false)
  else .error (.value .key (quotedGlyphs word))

/-- The six bits of a character of a binary scalar. -/
def sixBits? (c : Char) : Option Nat :=
  if 'A' ≤ c && c ≤ 'Z' then some (c.toNat - 65)
  else if 'a' ≤ c && c ≤ 'z' then some (c.toNat - 71)
  else if '0' ≤ c && c ≤ '9' then some (c.toNat + 4)
  else if c == '+' then some 62
  else if c == '/' then some 63
  else none

/-- Reads four characters as three bytes.  `place` counts the characters of the group so far,
`carry` holds the bits left of the last one, and `pads` counts the padding since then.  Other
characters are passed over, and nothing is read behind a complete padding. -/
def unpack (place carry pads : Nat) : List Char → Option (List UInt8)
  | [] => if place = 0 then some [] else none
  | c :: rest =>
    if c == '=' then
      if place ≥ 2 && place + pads + 1 ≥ 4 then some []
      else unpack place carry (if place ≥ 2 then pads + 1 else pads) rest
    else match sixBits? c with
      | none => unpack place carry pads rest
      | some v =>
        match place with
        | 0 => unpack 1 v 0 rest
        | 1 => (unpack 2 (v % 16) 0 rest).map (UInt8.ofNat (carry * 4 + v / 16) :: ·)
        | 2 => (unpack 3 (v % 4) 0 rest).map (UInt8.ofNat (carry * 16 + v / 4) :: ·)
        | _ => (unpack 0 0 0 rest).map (UInt8.ofNat (carry * 64 + v) :: ·)

/-- The bytes of a binary scalar. -/
def bytesOf (gs : List Glyph) : Except Fault Value :=
  let cs := visibleChars gs
  if cs.any fun c => c.toNat ≥ 0x80 then .error .malformed
  else match unpack 0 0 0 cs with
    | some bs => .ok (.bytes bs)
    | none => .error .malformed

/-- The microseconds of a fraction: six digits count. -/
def microsOf (fraction : List Char) : Nat :=
  let ds := fraction.take 6
  Url.numberValue (ds ++ List.replicate (6 - ds.length) '0')

/-- The minutes of an offset. -/
def offsetMinutes (o : OffsetParts) : Int :=
  let size : Int := Url.numberValue o.hour * 60 + Url.numberValue o.minute
  if o.negative then -size else size

/-- The date of its digits. -/
def dateOf (t : TimeParts) : Date :=
  ⟨Url.numberValue t.year, Url.numberValue t.month, Url.numberValue t.day⟩

/-- The time of its digits. -/
def momentOf (d : Date) (c : ClockParts) : Moment :=
  ⟨d, Url.numberValue c.hour, Url.numberValue c.minute, Url.numberValue c.second,
    microsOf c.fraction, if c.universal then some 0 else c.offset.map offsetMinutes⟩

/-- A value that has passed a check. -/
def checked (v : Value) : Option String → Except Fault Value
  | none => .ok v
  | some text => .error (.value .value text)

/-- The value of a date or a time. -/
def timeOf (gs : List Glyph) : Except Fault Value :=
  match TimeParts.ofChars (visibleChars gs) with
  | none => .error (.value .attribute "'NoneType' object has no attribute 'groupdict'")
  | some t =>
    let d := dateOf t
    match t.clock with
    | none => checked (.date d) d.check
    | some c =>
      let m := momentOf d c
      checked (.moment m) m.check

/-! ### All tags -/

/-- The value of a text under a tag for scalars. -/
def ofScalar (tag : Tag) (gs : List Glyph) : Except Fault Value :=
  match tag with
  | .str => .ok (.ofGlyphs gs)
  | .int => integerOf gs
  | .float => realOf gs
  | .bool => boolOf gs
  | .null => .ok .null
  | .binary => bytesOf gs
  | .timestamp => timeOf gs
  | _ => .error .malformed

/-- The tag is one for scalars. -/
def Tag.isForScalars (tag : Tag) : Bool :=
  [Tag.str, .int, .float, .bool, .null, .binary, .timestamp].contains tag

/-- The tag is one for collections. -/
def Tag.isForCollections (tag : Tag) : Bool := [Tag.seq, .map, .set, .omap, .pairs].contains tag

end ReleaseFetch.Yaml
