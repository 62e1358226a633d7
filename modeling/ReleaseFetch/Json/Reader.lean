/-
**Reading JSON.**

The reader takes a whole text and gives its value, or the first fault with its place.  It accepts
what the format allows and three words beside: the two infinities and the value that is no number.
A name that comes twice in an object keeps its first place and its last value.

Places are counted from what is left of the text, so no step of the reader carries a position.
Arrays and objects may be nested up to a limit.  A string may hold half of a pair of code units; as
the name of a member such a string can never be asked for, and the member is passed over.

Main definitions:

* `ReleaseFetch.Json.Fault` — a fault, as a count of the characters left, or a numeral too long, or
  too many levels;
* `ReleaseFetch.Json.value`, `ReleaseFetch.Json.items`, `ReleaseFetch.Json.members` — the reader,
  by fuel;
* `ReleaseFetch.Json.parse` — the value of a text;
* `ReleaseFetch.Json.describe` — the words for a fault, with line, column and position.
-/

import ReleaseFetch.Fields
import ReleaseFetch.Json.Value
import ReleaseFetch.Number.Numeral
import ReleaseFetch.Url.Address

set_option autoImplicit false

namespace ReleaseFetch.Json

open Text

/-! ### Faults -/

/-- What is wrong with a text. -/
inductive Complaint where
  | value
  | name
  | colon
  | comma
  | extra
  | unterminated
  | control
  | escape
  | codePoint
  | mark
  deriving DecidableEq

/-- The words for a complaint. -/
def Complaint.text : Complaint → String
  | .value => "Expecting value"
  | .name => "Expecting property name enclosed in double quotes"
  | .colon => "Expecting ':' delimiter"
  | .comma => "Expecting ',' delimiter"
  | .extra => "Extra data"
  | .unterminated => "Unterminated string starting at"
  | .control => "Invalid control character at"
  | .escape => "Invalid \\escape"
  | .codePoint => "Invalid \\uXXXX escape"
  | .mark => "Unexpected UTF-8 BOM (decode using utf-8-sig)"

/-- A fault: a complaint where so many characters are left, a numeral of too many digits, or an
array or object inside of too many others. -/
inductive Fault where
  | at (what : Complaint) (left : Nat)
  | tooLong (digits : Nat)
  | tooDeep (isObject : Bool)
  deriving DecidableEq

/-- The number of arrays and objects that may be inside of each other. -/
def depthLimit : Nat := 990

/-- A complaint about the text from here on. -/
def complain {α : Type} (what : Complaint) (rest : List Char) : Except Fault α :=
  .error (.at what rest.length)

/-! ### Blanks and strings -/

/-- The blanks between tokens. -/
def isSpace (c : Char) : Bool := c == ' ' || c == '\t' || c == '\n' || c == '\r'

/-- The text from the next token on. -/
def skipSpace (cs : List Char) : List Char := cs.dropWhile isSpace

/-- The value of four hexadecimal digits. -/
def hex4? : List Char → Option (Nat × List Char)
  | a :: b :: c :: d :: rest =>
    if [a, b, c, d].all Url.isHexDigit then
      some (Numeral.valueOf 16 ([a, b, c, d].map fun x => (Numeral.digit? x).getD 0), rest)
    else none
  | _ => none

/-- The first of a pair of code units. -/
def isHighUnit (n : Nat) : Bool := 0xd800 ≤ n && n ≤ 0xdbff

/-- The second of a pair of code units. -/
def isLowUnit (n : Nat) : Bool := 0xdc00 ≤ n && n ≤ 0xdfff

/-- The glyph of a code unit. -/
def unitGlyph (n : Nat) : Glyph :=
  if isHighUnit n || isLowUnit n then .half (n - 0xd800) else .char (Char.ofNat n)

/-- The character of two code units. -/
def pairChar (high low : Nat) : Char :=
  Char.ofNat (0x10000 + (high - 0xd800) * 0x400 + (low - 0xdc00))

/-- The character that a letter after a backslash stands for. -/
def shortEscape? : Char → Option Char
  | '"' => some '"'
  | '\\' => some '\\'
  | '/' => some '/'
  | 'b' => some '\x08'
  | 'f' => some '\x0c'
  | 'n' => some '\n'
  | 'r' => some '\r'
  | 't' => some '\t'
  | _ => none

/-- Reads the code unit after `\u`; `rest` starts behind the `u`, and a text may not end with the
digits. -/
def codeUnit (rest : List Char) : Except Fault (Nat × List Char) :=
  let fault : Except Fault (Nat × List Char) := .error (.at .codePoint (rest.length + 1))
  match hex4? rest with
  | some (n, r) => if r.isEmpty then fault else .ok (n, r)
  | none => fault

/-- Reads the glyph whose escape starts with the code unit `n`. -/
def unitEscape (n : Nat) (rest : List Char) : Except Fault (Glyph × List Char) :=
  match rest with
  | '\\' :: 'u' :: more =>
    if isHighUnit n && more.length > 4 then
      match codeUnit more with
      | .error f => .error f
      | .ok (m, r) =>
        if isLowUnit m then .ok (.char (pairChar n m), r) else .ok (unitGlyph n, rest)
    else .ok (unitGlyph n, rest)
  | _ => .ok (unitGlyph n, rest)

/-- Reads a string up to its closing quote; `opening` is the text from the opening one on. -/
def stringBody (opening : List Char) :
    (fuel : Nat) → List Char → Except Fault (List Glyph × List Char)
  | 0, _ => complain .unterminated opening
  | _ + 1, [] => complain .unterminated opening
  | fuel + 1, c :: rest =>
    if c = '"' then .ok ([], rest)
    else if c = '\\' then
      match rest with
      | [] => complain .unterminated opening
      | 'u' :: more => do
        let (n, afterUnit) ← codeUnit more
        let (x, afterEscape) ← unitEscape n afterUnit
        let (gs, r) ← stringBody opening fuel afterEscape
        return (x :: gs, r)
      | e :: more =>
        match shortEscape? e with
        | none => complain .escape (c :: rest)
        | some x => do
          let (gs, r) ← stringBody opening fuel more
          return (.char x :: gs, r)
    else if c.toNat < 0x20 then complain .control (c :: rest)
    else do
      let (gs, r) ← stringBody opening fuel rest
      return (.char c :: gs, r)

/-- Reads a string whose opening quote comes before `rest`. -/
def string (fuel : Nat) (rest : List Char) : Except Fault (List Glyph × List Char) :=
  stringBody ('"' :: rest) fuel rest

/-! ### Numbers -/

/-- The digits `0` to `9` at the front. -/
def leadingDigits (cs : List Char) : List Char × List Char :=
  (cs.takeWhile isPlainDigit, cs.dropWhile isPlainDigit)

/-- The whole part of a number: one zero, or digits that do not start with one. -/
def wholePart? (cs : List Char) : Option (List Char × List Char) :=
  match cs with
  | '0' :: rest => some (['0'], rest)
  | _ =>
    let (ds, rest) := leadingDigits cs
    if ds.isEmpty then none else some (ds, rest)

/-- The fraction of a number, with its point; empty if there is none. -/
def fractionPart (cs : List Char) : List Char × List Char :=
  match cs with
  | '.' :: rest =>
    let (ds, r) := leadingDigits rest
    if ds.isEmpty then ([], cs) else ('.' :: ds, r)
  | _ => ([], cs)

/-- The digits of an exponent after its sign; empty if there are none. -/
def exponentDigits (e : Char) (signs rest whole : List Char) : List Char × List Char :=
  let (ds, r) := leadingDigits rest
  if ds.isEmpty then ([], whole) else (e :: signs ++ ds, r)

/-- The exponent of a number, with its letter and sign; empty if there is none. -/
def exponentPart (cs : List Char) : List Char × List Char :=
  match cs with
  | e :: s :: rest =>
    if e == 'e' || e == 'E' then
      if s == '+' || s == '-' then exponentDigits e [s] rest cs
      else exponentDigits e [] (s :: rest) cs
    else ([], cs)
  | _ => ([], cs)

/-- Reads a number with its sign already taken off. -/
def unsignedNumber? (negative : Bool) (cs : List Char) :
    Option (Except Fault Value × List Char) :=
  (wholePart? cs).map fun (whole, afterWhole) =>
    let (fraction, afterFraction) := fractionPart afterWhole
    let (exponent, rest) := exponentPart afterFraction
    if fraction.isEmpty && exponent.isEmpty then
      if whole.length > Numeral.digitLimit then (.error (.tooLong whole.length), rest)
      else
        let n : Int := Url.numberValue whole
        (.ok (.integer (if negative then -n else n)), rest)
    else
      (.ok (.real ((Numeral.decimal? negative (whole ++ fraction ++ exponent)).getD .nan)), rest)

/-! ### Words -/

/-- The words of the format, with their values. -/
def wordValues : List (List Char × Value) :=
  [("null".toList, .null), ("true".toList, .bool true), ("false".toList, .bool false),
   ("NaN".toList, .real .nan), ("Infinity".toList, .real (.infinite false)),
   ("-Infinity".toList, .real (.infinite true))]

/-- The word at the front. -/
def word? (cs : List Char) : Option (Value × List Char) :=
  (wordValues.find? fun w => w.1.isPrefixOf cs).map fun w => (w.2, cs.drop w.1.length)

/-- Reads a word or a number. -/
def atom (cs : List Char) : Except Fault (Value × List Char) :=
  match word? cs with
  | some found => .ok found
  | none =>
    let number :=
      match cs with
      | '-' :: rest => unsignedNumber? true rest
      | _ => unsignedNumber? false cs
    match number with
    | some (.ok v, rest) => .ok (v, rest)
    | some (.error f, _) => .error f
    | none => complain .value cs

/-! ### Values -/

/-- The members with one more, unless its name is no text. -/
def withMember (name : List Glyph) (v : Value) (fields : List (String × Value)) :
    List (String × Value) :=
  match charsOf? name with
  | some cs => Fields.set (String.ofList cs) v fields
  | none => fields

mutual

/-- Reads a value that may hold `depth` levels of arrays and objects. -/
def value : (fuel : Nat) → (depth : Nat) → List Char → Except Fault (Value × List Char)
  | 0, _, cs => complain .value cs
  | fuel + 1, depth, cs =>
    match cs with
    | '"' :: rest => do
      let (gs, r) ← string fuel rest
      return (.ofGlyphs gs, r)
    | '{' :: rest =>
      if depth = 0 then .error (.tooDeep true)
      else match skipSpace rest with
        | '}' :: r => .ok (.object [], r)
        | r => do
          let (fields, r) ← members fuel (depth - 1) [] r
          return (.object fields, r)
    | '[' :: rest =>
      if depth = 0 then .error (.tooDeep false)
      else match skipSpace rest with
        | ']' :: r => .ok (.array [], r)
        | r => do
          let (vs, r) ← items fuel (depth - 1) r
          return (.array vs, r)
    | _ => atom cs

/-- Reads the items of an array, up to its closing bracket. -/
def items : (fuel : Nat) → (depth : Nat) → List Char → Except Fault (List Value × List Char)
  | 0, _, cs => complain .value cs
  | fuel + 1, depth, cs => do
    let (v, r) ← value fuel depth cs
    match skipSpace r with
    | ']' :: r => return ([v], r)
    | ',' :: r =>
      let (vs, r) ← items fuel depth (skipSpace r)
      return (v :: vs, r)
    | r => complain .comma r

/-- Reads the members of an object, up to its closing brace; `fields` are those read so far. -/
def members : (fuel : Nat) → (depth : Nat) → List (String × Value) → List Char →
    Except Fault (List (String × Value) × List Char)
  | 0, _, _, cs => complain .name cs
  | fuel + 1, depth, fields, cs =>
    match cs with
    | '"' :: rest => do
      let (name, afterName) ← string fuel rest
      match skipSpace afterName with
      | ':' :: r => do
        let (v, r) ← value fuel depth (skipSpace r)
        let fields := withMember name v fields
        match skipSpace r with
        | '}' :: r => return (fields, r)
        | ',' :: r => members fuel depth fields (skipSpace r)
        | r => complain .comma r
      | r => complain .colon r
    | _ => complain .name cs

end

/-- The value of a text. -/
def parse (s : String) : Except Fault Value :=
  let cs := s.toList
  if cs.head? == some '\ufeff' then complain .mark cs
  else do
    let (v, r) ← value (2 * cs.length + 2) depthLimit (skipSpace cs)
    let r := skipSpace r
    if r.isEmpty then return v else complain .extra r

/-! ### Words for faults -/

/-- The number of the line that a position is on, and its column there; both count from one. -/
def lineAndColumn (cs : List Char) (position : Nat) : Nat × Nat :=
  let before := cs.take position
  (before.count '\n' + 1, (before.reverse.takeWhile (· != '\n')).length + 1)

/-- The kind of value that is too deep. -/
def nestedKind (isObject : Bool) : String := if isObject then "object" else "array"

/-- The words for a fault of a text. -/
def describe (s : String) : Fault → String
  | .tooLong digits => Numeral.limitText digits
  | .tooDeep isObject =>
    s!"maximum recursion depth exceeded while decoding a JSON {nestedKind isObject} from a unicode " ++
      "string"
  | .at what left =>
    let cs := s.toList
    let position := cs.length - left
    let (line, column) := lineAndColumn cs position
    s!"{what.text}: line {line} column {column} (char {position})"

end ReleaseFetch.Json
