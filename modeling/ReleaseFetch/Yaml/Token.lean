/-
**The tokens of a configuration file.**

A text is cut into tokens from left to right.  Indentation opens and closes collections, and a
scalar may turn out to be a key only when the colon behind it is met: such candidates are
remembered, one for each depth of brackets, and the token that makes one a key is inserted where
it began.

Tokens are used as soon as they are settled.  So where the cut meets a fault, the tokens before it
count, up to the first that may still turn out to be a key.

Main definitions:

* `ReleaseFetch.Yaml.Token` — the tokens;
* `ReleaseFetch.Yaml.Scan` — how far the cut has come;
* `ReleaseFetch.Yaml.Tokens.ofText` — the tokens of a text, and the fault behind them.
-/

import ReleaseFetch.Yaml.Scalar

set_option autoImplicit false

namespace ReleaseFetch.Yaml

/-- A token. -/
inductive Token where
  | versionDirective (major : Nat)
  | tagDirective (handle expansion : String)
  | otherDirective
  | documentStart
  | documentEnd
  | blockSequenceStart
  | blockMappingStart
  | blockEnd
  | flowSequenceStart
  | flowSequenceEnd
  | flowMappingStart
  | flowMappingEnd
  | blockEntry
  | flowEntry
  | key
  | value
  | alias (name : String)
  | anchor (name : String)
  | tag (handle : Option String) (suffix : String)
  | scalar (text : List Text.Glyph) (plain : Bool)
  deriving DecidableEq

/-- A token that may turn out to be the start of a key. -/
structure Candidate where
  token : Nat
  required : Bool
  index : Nat
  line : Nat
  column : Nat

/-- How far the cut has come.  Of the tokens that are there, `used` holds the settled ones, last
first, and `tokens` those behind them. -/
structure Scan where
  cursor : Cursor
  used : List Token
  usedCount : Nat
  tokens : List Token
  depth : Nat
  indent : Int
  indents : List Int
  keyAllowed : Bool
  candidates : List (Nat × Candidate)

namespace Scan

/-- The start of a text. -/
def start (cs : List Char) (cut : Option Fault) : Scan :=
  ⟨.start cs cut, [], 0, [], 0, -1, [], true, []⟩

/-- Adds a token. -/
def push (s : Scan) (t : Token) : Scan := { s with tokens := s.tokens ++ [t] }

/-- The number of the next token. -/
def count (s : Scan) : Nat := s.usedCount + s.tokens.length

/-- Puts a token under a number, before those that come from there on. -/
def insertAt (s : Scan) (place : Nat) (t : Token) : Scan :=
  let n := place - s.usedCount
  { s with tokens := s.tokens.take n ++ t :: s.tokens.drop n }

/-- Adds a token of so many characters. -/
def take (s : Scan) (t : Token) (n : Nat) : Scan :=
  { s.push t with cursor := s.cursor.forward n }

/-- Inside brackets. -/
def inFlow (s : Scan) : Bool := s.depth != 0

/-! ### Candidates for keys -/

/-- The longest text, in characters, that can be a key without being marked as one. -/
def keyLimit : Nat := 1024

/-- The candidate can no longer be a key: its line has ended, or it is too long. -/
def isStale (s : Scan) (k : Candidate) : Bool :=
  k.line != s.cursor.line || s.cursor.index - k.index > keyLimit

/-- Forgets the candidates that can no longer be keys.  One that had to be a key is a fault. -/
def dropStale (s : Scan) : Except Fault Scan :=
  if s.candidates.any fun k => s.isStale k.2 && k.2.required then s.cursor.fail
  else .ok { s with candidates := s.candidates.filter fun k => !s.isStale k.2 }

/-- Forgets the candidate at the depth of the cursor. -/
def dropCandidate (s : Scan) : Except Fault Scan :=
  match s.candidates.lookup s.depth with
  | some k =>
    if k.required then s.cursor.fail
    else .ok { s with candidates := s.candidates.filter fun k => k.1 != s.depth }
  | none => .ok s

/-- Remembers the next token as a candidate, if a key may start here. -/
def addCandidate (s : Scan) : Except Fault Scan :=
  if s.keyAllowed then
    match s.dropCandidate with
    | .error f => .error f
    | .ok s =>
      let c := s.cursor
      let required := !s.inFlow && s.indent == c.column
      let k : Candidate := ⟨s.count, required, c.index, c.line, c.column⟩
      .ok { s with candidates := (s.depth, k) :: s.candidates }
  else .ok s

/-- Settles the tokens before the first candidate. -/
def settle (s : Scan) : Scan :=
  let first := ((s.candidates.filter fun k => !s.isStale k.2).map (·.2.token)).min?
  let n := first.getD s.count - s.usedCount
  { s with
    used := (s.tokens.take n).reverse ++ s.used
    usedCount := s.usedCount + (s.tokens.take n).length
    tokens := s.tokens.drop n }

/-- The tokens that are settled. -/
def settled (s : Scan) : List Token := s.settle.used.reverse

/-! ### Indentation -/

/-- Closes collections until the indentation is not above a column. -/
def closeTo (column : Int) : (indent : Int) → List Int → List Token × Int × List Int
  | indent, [] => ([], indent, [])
  | indent, outer :: more =>
    if indent > column then
      let (ts, i, is) := closeTo column outer more
      (.blockEnd :: ts, i, is)
    else ([], indent, outer :: more)

/-- Closes the collections that end at a column; between brackets there are none. -/
def unwind (s : Scan) (column : Int) : Scan :=
  if s.inFlow then s
  else
    let (ts, indent, indents) := closeTo column s.indent s.indents
    { s with tokens := s.tokens ++ ts, indent := indent, indents := indents }

/-- Opens a collection at a column, with a token under a number, unless one is open there. -/
def openAt (s : Scan) (column place : Nat) (t : Token) : Scan :=
  if s.indent < column then
    { s.insertAt place t with indent := column, indents := s.indent :: s.indents }
  else s

/-- Opens a collection at the cursor. -/
def openHere (s : Scan) (t : Token) : Scan := s.openAt s.cursor.column s.count t

/-! ### Between tokens -/

/-- Skips spaces, comments and line ends; behind a line end a key may start, except between
brackets. -/
def skipBlanks (inFlow : Bool) : (fuel : Nat) → Cursor → Bool → Cursor × Bool
  | 0, c, allowed => (c, allowed)
  | fuel + 1, c, allowed =>
    let c := c.skip (· == ' ')
    let c := if c.head == '#' then c.skip fun x => !isBreakOrEnd x else c
    match c.lineBreak? with
    | none => (c, allowed)
    | some (_, c) => skipBlanks inFlow fuel c (allowed || !inFlow)

/-- Goes on to the next token, over at most `fuel` lines. -/
def toNextToken (fuel : Nat) (s : Scan) : Scan :=
  let c := s.cursor
  let c := if c.index == 0 && c.head == '\ufeff' then c.next else c
  let (c, allowed) := skipBlanks s.inFlow fuel c s.keyAllowed
  { s with cursor := c, keyAllowed := allowed }

/-! ### Directives -/

/-- Digits at the cursor, at least one. -/
def digits (c : Cursor) : Except Fault (Nat × Cursor) :=
  let (ds, after) := c.span fun x => '0' ≤ x && x ≤ '9'
  if ds.isEmpty then c.fail
  else if ds.length > Numeral.digitLimit then
    .error (after.meets?.getD (.value .value (Numeral.limitText ds.length)))
  else .ok (Url.numberValue ds, after)

/-- The cursor has to stand before a character of a class. -/
def expect (p : Char → Bool) (c : Cursor) : Except Fault Unit :=
  if p c.head then .ok () else c.fail

/-- The handle of a tag: `!`, or letters between two of them. -/
def tagHandle (c : Cursor) : Except Fault (String × Cursor) := do
  expect (· == '!') c
  let (letters, c) := c.next.span isWordChar
  if c.head == '!' then return (String.ofList ('!' :: letters ++ ['!']), c.next)
  else if letters.isEmpty && c.head == ' ' then return ("!", c)
  else c.fail

/-- The escaped bytes of a tag. -/
def escapedBytes : (fuel : Nat) → Cursor → Except Fault (List UInt8 × Cursor)
  | 0, c => c.fail
  | fuel + 1, c =>
    if c.head == '%' then do
      let (v, c) ← Scalar.codePoint 2 c.next
      let (bs, c) ← escapedBytes fuel c
      return (UInt8.ofNat v :: bs, c)
    else .ok ([], c)

/-- A character of a tag, other than an escape. -/
def isTagChar (c : Char) : Bool := c.isAlphanum || "-;/?:@&=+$,_.!~*'()[]".toList.contains c

/-- The characters of a tag. -/
def tagText : (fuel : Nat) → Cursor → Except Fault (List Char × Cursor)
  | 0, c => c.fail
  | fuel + 1, c =>
    if isTagChar c.head then do
      let (xs, after) ← tagText fuel c.next
      return (c.head :: xs, after)
    else if c.head == '%' then do
      let (bytes, after) ← escapedBytes (c.rest.length + 1) c
      match Text.Utf8.decode bytes with
      | .error _ => after.fail
      | .ok xs =>
        let (ys, after) ← tagText fuel after
        return (xs ++ ys, after)
    else .ok ([], c)

/-- The characters of a tag, at least one. -/
def tagUri (c : Cursor) : Except Fault (String × Cursor) := do
  let (xs, after) ← tagText (c.rest.length + 1) c
  if after.index == c.index then c.fail
  return (String.ofList xs, after)

/-- The value of a version directive. -/
def versionValue (c : Cursor) : Except Fault (Token × Cursor) := do
  let (major, c) ← digits (c.skip (· == ' '))
  expect (· == '.') c
  let (_, c) ← digits c.next
  expect isSpaceOrEnd c
  return (.versionDirective major, c)

/-- The value of a tag directive. -/
def tagValue (c : Cursor) : Except Fault (Token × Cursor) := do
  let (handle, c) ← tagHandle (c.skip (· == ' '))
  expect (· == ' ') c
  let (expansion, c) ← tagUri (c.skip (· == ' '))
  expect isSpaceOrEnd c
  return (.tagDirective handle expansion, c)

/-- A directive behind its percent sign. -/
def directive (c : Cursor) : Except Fault (Token × Cursor) := do
  let (name, c) := c.span isWordChar
  if name.isEmpty then c.fail
  expect isSpaceOrEnd c
  let (t, c) ←
    if name == "YAML".toList then versionValue c
    else if name == "TAG".toList then tagValue c
    else pure (Token.otherDirective, c.skip fun x => !isBreakOrEnd x)
  return (t, ← Scalar.endOfLine c)

/-! ### Names and tags -/

/-- What may stand behind the name of an anchor. -/
def endsName (c : Char) : Bool := isBlankOrEnd c || "?:,]\x7d%@`".toList.contains c

/-- The name of an anchor or an alias, whose mark is at the cursor. -/
def anchorName (c : Cursor) : Except Fault (String × Cursor) := do
  let (name, c) := c.next.span isWordChar
  if name.isEmpty then c.fail
  expect endsName c
  return (String.ofList name, c)

/-- The tag at the cursor has a handle with a name: a second mark follows. -/
def hasHandle (c : Cursor) : Bool :=
  (c.next.rest.dropWhile fun x => !isSpaceOrEnd x && x != '!').head? == some '!'

/-- The tag at the cursor. -/
def tag (c : Cursor) : Except Fault (Token × Cursor) := do
  let second := c.peek 1
  let (t, c) ←
    if second == '<' then do
      let (suffix, c) ← tagUri (c.forward 2)
      expect (· == '>') c
      pure (Token.tag none suffix, c.next)
    else if isBlankOrEnd second then pure (Token.tag none "!", c.next)
    else do
      let (handle, c) ← if hasHandle c then tagHandle c else pure ("!", c.next)
      let (suffix, c) ← tagUri c
      pure (Token.tag (some handle) suffix, c)
  expect isSpaceOrEnd c
  return (t, c)

/-! ### One token -/

/-- Adds a token that a key can start with. -/
def addStart (s : Scan) (read : Cursor → Except Fault (Token × Cursor)) : Except Fault Scan := do
  let s ← s.addCandidate
  let (t, c) ← read s.cursor
  return { s.push t with cursor := c, keyAllowed := false }

/-- Adds a directive or the mark of a document. -/
def addTopLevel (s : Scan) (read : Cursor → Except Fault (Token × Cursor)) :
    Except Fault Scan := do
  let s ← (s.unwind (-1)).dropCandidate
  let (t, c) ← read s.cursor
  return { s.push t with cursor := c, keyAllowed := false }

/-- Opens brackets. -/
def openBrackets (s : Scan) (t : Token) : Except Fault Scan := do
  let s ← s.addCandidate
  return { s.take t 1 with depth := s.depth + 1, keyAllowed := true }

/-- Closes brackets. -/
def closeBrackets (s : Scan) (t : Token) : Except Fault Scan := do
  let s ← s.dropCandidate
  return { s.take t 1 with depth := s.depth - 1, keyAllowed := false }

/-- Adds the comma between brackets. -/
def addFlowEntry (s : Scan) : Except Fault Scan := do
  let s ← { s with keyAllowed := true }.dropCandidate
  return s.take .flowEntry 1

/-- Outside of brackets, a key has to be allowed here; a collection is opened. -/
def openBlock (s : Scan) (t : Token) : Except Fault Scan :=
  if s.inFlow then .ok s
  else if s.keyAllowed then .ok (s.openHere t)
  else s.cursor.fail

/-- Adds the dash of a sequence. -/
def addBlockEntry (s : Scan) : Except Fault Scan := do
  let s ← s.openBlock .blockSequenceStart
  let s ← { s with keyAllowed := true }.dropCandidate
  return s.take .blockEntry 1

/-- Adds the question mark of a key. -/
def addKey (s : Scan) : Except Fault Scan := do
  let s ← s.openBlock .blockMappingStart
  let s ← { s with keyAllowed := !s.inFlow }.dropCandidate
  return s.take .key 1

/-- Adds the colon of a value.  If a candidate waits at this depth, it is a key. -/
def addValue (s : Scan) : Except Fault Scan :=
  match s.candidates.lookup s.depth with
  | some k =>
    let others := s.candidates.filter fun k => k.1 != s.depth
    let keyed : Scan :=
      { s.insertAt k.token .key with candidates := others, keyAllowed := false }
    let opened := if s.inFlow then keyed else keyed.openAt k.column k.token .blockMappingStart
    .ok (opened.take .value 1)
  | none => do
    let s ← s.openBlock .blockMappingStart
    let s ← { s with keyAllowed := !s.inFlow }.dropCandidate
    return s.take .value 1

/-- Adds an indented block. -/
def addBlock (s : Scan) : Except Fault Scan := do
  let s ← { s with keyAllowed := true }.dropCandidate
  let (text, c) ← Scalar.block s.indent s.cursor
  return { s.push (.scalar (Text.glyphs text) false) with cursor := c }

/-- Adds a quoted scalar. -/
def addQuoted (s : Scan) : Except Fault Scan :=
  s.addStart fun c => do
    let (text, c) ← Scalar.flow c
    return (.scalar text false, c)

/-- Adds a plain scalar. -/
def addPlain (s : Scan) : Except Fault Scan := do
  let s ← s.addCandidate
  let p := Scalar.plain s.inFlow s.indent s.cursor
  return { s.push (.scalar (Text.glyphs p.text) true) with
    cursor := p.cursor, keyAllowed := p.endsLine }

/-- A mark that cannot start a plain scalar. -/
def isMark (c : Char) : Bool := "-?:,[]\x7b\x7d#&*!|>'\"%@`".toList.contains c

/-- A plain scalar starts at the cursor. -/
def startsPlain (s : Scan) : Bool :=
  let x := s.cursor.head
  (!isBlankOrEnd x && !isMark x) ||
    (!isBlankOrEnd (s.cursor.peek 1) && (x == '-' || (!s.inFlow && (x == '?' || x == ':'))))

/-- Adds the token at the cursor. -/
def addToken (s : Scan) : Except Fault Scan :=
  let c := s.cursor
  let x := c.head
  let atStart := c.column == 0
  let alone := isBlankOrEnd (c.peek 1)
  if x == '%' && atStart then s.addTopLevel fun c => directive c.next
  else if atStart && c.atMark '-' then
    s.addTopLevel fun c => .ok (.documentStart, c.forward 3)
  else if atStart && c.atMark '.' then s.addTopLevel fun c => .ok (.documentEnd, c.forward 3)
  else if x == '[' then s.openBrackets .flowSequenceStart
  else if x == '\x7b' then s.openBrackets .flowMappingStart
  else if x == ']' then s.closeBrackets .flowSequenceEnd
  else if x == '\x7d' then s.closeBrackets .flowMappingEnd
  else if x == ',' then s.addFlowEntry
  else if x == '-' && alone then s.addBlockEntry
  else if x == '?' && (s.inFlow || alone) then s.addKey
  else if x == ':' && (s.inFlow || alone) then s.addValue
  else if x == '*' then s.addStart fun c => do
    let (name, c) ← anchorName c
    return (.alias name, c)
  else if x == '&' then s.addStart fun c => do
    let (name, c) ← anchorName c
    return (.anchor name, c)
  else if x == '!' then s.addStart tag
  else if (x == '|' || x == '>') && !s.inFlow then s.addBlock
  else if x == '\'' || x == '"' then s.addQuoted
  else if s.startsPlain then s.addPlain
  else s.cursor.fail

/-! ### All tokens -/

/-- Closes what is open at the end of the text. -/
def finish (s : Scan) : Except Fault Scan := (s.unwind (-1)).dropCandidate

/-- The cut may not have been come to. -/
def checkCut (s : Scan) : Except Fault Unit :=
  match s.cursor.meets? with
  | some f => .error f
  | none => .ok ()

/-- Adds the next token, over at most `fuel` lines; at the end of the text, closes what is open. -/
def advance (fuel : Nat) (s : Scan) : Except Fault Scan := do
  let s := s.toNextToken fuel
  s.checkCut
  let s ← s.dropStale
  let s := s.unwind s.cursor.column
  if s.cursor.rest.isEmpty then s.finish
  else
    let s ← s.addToken
    s.checkCut
    return s

end Scan

/-- Tokens, and the fault behind them. -/
structure Tokens where
  found : List Token
  fault : Option Fault

/-- The tokens that are there and all that are left.  Every step but the last takes a character, so
as much fuel as there are characters left lasts for the steps and for the lines between them. -/
def Scan.run : (fuel : Nat) → Scan → Tokens
  | 0, s => ⟨s.settled, some .malformed⟩
  | fuel + 1, s =>
    match s.advance (fuel + 1) with
    | .error f => ⟨s.settled, some f⟩
    | .ok after =>
      if s.cursor.rest.isEmpty then ⟨after.used.reverse ++ after.tokens, none⟩
      else run fuel after.settle

/-- The tokens of a text, which may be cut off. -/
def Tokens.ofText (cs : List Char) (cut : Option Fault) : Tokens :=
  (Scan.start cs cut).run (cs.length + 2)

end ReleaseFetch.Yaml
