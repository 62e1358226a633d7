/-
**The text of a scalar.**

A scalar is written in one of four ways: plain, in single or double quotes, or as an indented
block.  Line ends inside it are folded: one becomes a space, and of several the first is dropped.
A block keeps its lines, or folds them, and says what to do with the line ends behind it.  Double
quotes know escapes, and an escape can name half of a pair of code units.

Main definitions:

* `ReleaseFetch.Yaml.Scalar.flow` — a quoted scalar;
* `ReleaseFetch.Yaml.Scalar.block` — an indented block;
* `ReleaseFetch.Yaml.Scalar.plain` — a plain scalar.
-/

import ReleaseFetch.Number.Numeral
import ReleaseFetch.Text.Glyph
import ReleaseFetch.Yaml.Cursor
import ReleaseFetch.Url.Address

set_option autoImplicit false

namespace ReleaseFetch.Yaml.Scalar

open Text

/-! ### Line ends -/

/-- A folded line end: one counts as a space, others keep what comes behind the first. -/
def folded (first : Char) (breaks : List Char) : List Char :=
  (if first != '\n' then [first] else if breaks.isEmpty then [' '] else []) ++ breaks

/-- Line ends with blanks before them, inside quotes.  The mark of a document may not stand at the
start of a line. -/
def quotedBreaks : (fuel : Nat) → Cursor → Except Fault (List Char × Cursor)
  | 0, c => c.fail
  | fuel + 1, c =>
    if c.atDocumentMark then c.fail
    else
      let c := c.skip isSpaceOrTab
      match c.lineBreak? with
      | none => .ok ([], c)
      | some (x, c) =>
        match quotedBreaks fuel c with
        | .error f => .error f
        | .ok (xs, c) => .ok (x :: xs, c)

/-! ### Quotes -/

/-- The character that a letter after a backslash stands for. -/
def shortEscape? : Char → Option Char
  | '0' => some '\x00'
  | 'a' => some '\x07'
  | 'b' => some '\x08'
  | 't' => some '\x09'
  | '\t' => some '\x09'
  | 'n' => some '\x0a'
  | 'v' => some '\x0b'
  | 'f' => some '\x0c'
  | 'r' => some '\x0d'
  | 'e' => some '\x1b'
  | ' ' => some ' '
  | '"' => some '"'
  | '\\' => some '\\'
  | '/' => some '/'
  | 'N' => some '\x85'
  | '_' => some '\xa0'
  | 'L' => some '\u2028'
  | 'P' => some '\u2029'
  | _ => none

/-- The number of digits of a code point after a letter. -/
def codeWidth? : Char → Option Nat
  | 'x' => some 2
  | 'u' => some 4
  | 'U' => some 8
  | _ => none

/-- The glyph of a code point. -/
def codeGlyph (n : Nat) : Except Fault Glyph :=
  if n ≥ 0x80000000 then
    .error (.value .overflow "Python int too large to convert to C int")
  else if n ≥ 0x110000 then .error (.value .value "chr() arg not in range(0x110000)")
  else if 0xd800 ≤ n && n ≤ 0xdfff then .ok (.half (n - 0xd800))
  else .ok (.char (Char.ofNat n))

/-- The code point at the cursor, of so many digits, and the place behind them. -/
def codePoint (width : Nat) (c : Cursor) : Except Fault (Nat × Cursor) :=
  let digits := c.rest.take width
  if !digits.all Url.isHexDigit then c.fail
  else if digits.length < width then (c.forward width).fail
  else .ok (Numeral.valueOf 16 (digits.map fun x => (Numeral.digit? x).getD 0), c.forward width)

/-- What a backslash at the cursor stands for. -/
def escape (c : Cursor) : Except Fault (List Glyph × Cursor) :=
  let c := c.next
  match shortEscape? c.head with
  | some x => .ok ([.char x], c.next)
  | none =>
    match codeWidth? c.head with
    | some width =>
      match codePoint width c.next with
      | .error f => .error f
      | .ok (n, c) =>
        match codeGlyph n with
        | .error f => .error f
        | .ok g => .ok ([g], c)
    | none =>
      match c.lineBreak? with
      | none => c.fail
      | some (_, c) =>
        match quotedBreaks (c.rest.length + 1) c with
        | .error f => .error f
        | .ok (xs, c) => .ok (glyphs xs, c)

/-- Text inside quotes up to a blank, a line end or the closing quote. -/
def quotedText (double : Bool) : (fuel : Nat) → Cursor → Except Fault (List Glyph × Cursor)
  | 0, c => c.fail
  | fuel + 1, c =>
    let continueWith (xs : List Glyph) (c : Cursor) : Except Fault (List Glyph × Cursor) :=
      match quotedText double fuel c with
      | .error f => .error f
      | .ok (ys, c) => .ok (xs ++ ys, c)
    let x := c.head
    if isBlankOrEnd x then .ok ([], c)
    else if !double && x == '\'' then
      if c.peek 1 == '\'' then continueWith [.char '\''] (c.forward 2) else .ok ([], c)
    else if double && x == '"' then .ok ([], c)
    else if double && x == '\\' then
      match escape c with
      | .error f => .error f
      | .ok (xs, c) => continueWith xs c
    else continueWith [.char x] c.next

/-- Blanks inside quotes, or a folded line end. -/
def quotedBlanks (c : Cursor) : Except Fault (List Char × Cursor) :=
  let (blanks, c) := c.span isSpaceOrTab
  if isEnd c.head then c.fail
  else match c.lineBreak? with
    | none => .ok (blanks, c)
    | some (first, c) =>
      match quotedBreaks (c.rest.length + 1) c with
      | .error f => .error f
      | .ok (breaks, c) => .ok (folded first breaks, c)

/-- The inside of a quoted scalar, and the place behind its closing quote. -/
def quotedBody (double : Bool) : (fuel : Nat) → Cursor → Except Fault (List Glyph × Cursor)
  | 0, c => c.fail
  | fuel + 1, c =>
    match quotedText double (c.rest.length + 1) c with
    | .error f => .error f
    | .ok (xs, c) =>
      if c.head == (if double then '"' else '\'') then .ok (xs, c.next)
      else match quotedBlanks c with
        | .error f => .error f
        | .ok (ys, c) =>
          match quotedBody double fuel c with
          | .error f => .error f
          | .ok (zs, c) => .ok (xs ++ glyphs ys ++ zs, c)

/-- A quoted scalar whose opening quote is at the cursor. -/
def flow (c : Cursor) : Except Fault (List Glyph × Cursor) :=
  quotedBody (c.head == '"') (c.rest.length + 1) c.next

/-! ### Blocks -/

/-- What becomes of the line ends behind a block. -/
inductive Chomping where
  | strip
  | clip
  | keep
  deriving DecidableEq

/-- The chomping that a sign asks for. -/
def chompingOf (c : Char) : Option Chomping :=
  if c == '+' then some .keep else if c == '-' then some .strip else none

/-- The indentation that a digit asks for; zero is a fault. -/
def indentOf (c : Char) : Option Nat :=
  if '0' ≤ c && c ≤ '9' then some (c.toNat - 48) else none

/-- What stands behind the mark of a block: a sign and a digit, in either order. -/
def blockHeader (c : Cursor) : Except Fault (Chomping × Option Nat × Cursor) :=
  let (chomping, indent, c) :=
    match chompingOf c.head with
    | some chomping =>
      let c := c.next
      match indentOf c.head with
      | some n => (chomping, some n, c.next)
      | none => (chomping, none, c)
    | none =>
      match indentOf c.head with
      | some n =>
        let c := c.next
        match chompingOf c.head with
        | some chomping => (chomping, some n, c.next)
        | none => (.clip, some n, c)
      | none => (.clip, none, c)
  if indent == some 0 || !isSpaceOrEnd c.head then c.fail
  else .ok (chomping, indent, c)

/-- Skips spaces and a comment up to the end of the line. -/
def endOfLine (c : Cursor) : Except Fault Cursor :=
  let c := c.skip (· == ' ')
  let c := if c.head == '#' then c.skip fun x => !isBreakOrEnd x else c
  match c.lineBreak? with
  | some (_, c) => .ok c
  | none => if isEnd c.head then .ok c else c.fail

/-- Blank lines before a block, and the widest indentation among them. -/
def blockStart : (fuel : Nat) → (widest : Nat) → Cursor → List Char × Nat × Cursor
  | 0, widest, c => ([], widest, c)
  | fuel + 1, widest, c =>
    if c.head == ' ' then
      let c := c.next
      blockStart fuel (max widest c.column) c
    else match c.lineBreak? with
      | some (x, c) =>
        let (xs, widest, c) := blockStart fuel widest c
        (x :: xs, widest, c)
      | none => ([], widest, c)

/-- Skips spaces up to a column. -/
def indentTo (column : Nat) (c : Cursor) : Cursor :=
  let spaces := (c.rest.takeWhile (· == ' ')).length
  c.forward (min spaces (column - c.column))

/-- Blank lines inside a block. -/
def blockBreaks (column : Nat) : (fuel : Nat) → Cursor → List Char × Cursor
  | 0, c => ([], c)
  | fuel + 1, c =>
    let c := indentTo column c
    match c.lineBreak? with
    | some (x, c) =>
      let (xs, c) := blockBreaks column fuel c
      (x :: xs, c)
    | none => ([], c)

/-- What a block leaves at its end: the last line end, and the blank lines behind it. -/
structure BlockEnd where
  last : List Char
  breaks : List Char

/-- The lines of a block from the cursor on; `breaks` are the blank lines before it. -/
def blockLines (fold : Bool) (column : Nat) :
    (fuel : Nat) → (breaks : List Char) → Cursor → List Char × BlockEnd × Cursor
  | 0, breaks, c => ([], ⟨[], breaks⟩, c)
  | fuel + 1, breaks, c =>
    if c.column != column || isEnd c.head then ([], ⟨[], breaks⟩, c)
    else
      let opensPlain := !isSpaceOrTab c.head
      let (line, c) := c.span fun x => !isBreakOrEnd x
      let (last, c) :=
        match c.lineBreak? with
        | some (x, c) => ([x], c)
        | none => ([], c)
      let (after, c) := blockBreaks column (c.rest.length + 1) c
      if c.column == column && !isEnd c.head then
        let joint :=
          if fold && last == ['\n'] && opensPlain && !isSpaceOrTab c.head then
            if after.isEmpty then [' '] else []
          else last
        let (more, tail, c) := blockLines fold column fuel after c
        (breaks ++ line ++ joint ++ more, tail, c)
      else (breaks ++ line, ⟨last, after⟩, c)

/-- A block whose mark is at the cursor, under the indentation `indent`. -/
def block (indent : Int) (c : Cursor) : Except Fault (List Char × Cursor) :=
  let fold := c.head == '>'
  match blockHeader c.next with
  | .error f => .error f
  | .ok (chomping, asked, c) =>
    match endOfLine c with
    | .error f => .error f
    | .ok c =>
      let least := (max (indent + 1) 1).toNat
      let fuel := c.rest.length + 1
      let (breaks, column, c) :=
        match asked with
        | none =>
          let (breaks, widest, c) := blockStart fuel 0 c
          (breaks, max least widest, c)
        | some n =>
          let column := least + n - 1
          let (breaks, c) := blockBreaks column fuel c
          (breaks, column, c)
      let (text, tail, c) := blockLines fold column fuel breaks c
      .ok (text ++ (if chomping == .strip then [] else tail.last) ++
        (if chomping == .keep then tail.breaks else []), c)

/-! ### Plain -/

/-- The characters that have a meaning of their own between brackets. -/
def isFlowMark (c : Char) : Bool :=
  c == ',' || c == '[' || c == ']' || c == '\x7b' || c == '\x7d'

/-- The number of characters of a plain run. -/
def plainRun (inFlow : Bool) : List Char → Nat
  | [] => 0
  | x :: rest =>
    let after := rest.headD '\x00'
    if isBlankOrEnd x || (x == ':' && (isBlankOrEnd after || (inFlow && isFlowMark after))) ||
      (inFlow && (isFlowMark x || x == '?')) then 0
    else plainRun inFlow rest + 1

/-- Blank lines behind a plain run; `none` at the mark of a document. -/
def plainBreaks : (fuel : Nat) → Cursor → Option (List Char) × Cursor
  | 0, c => (some [], c)
  | fuel + 1, c =>
    if c.head == ' ' then plainBreaks fuel c.next
    else match c.lineBreak? with
      | none => (some [], c)
      | some (x, c) =>
        if c.atDocumentMark then (none, c)
        else
          let (xs, c) := plainBreaks fuel c
          (xs.map (x :: ·), c)

/-- What stands between two runs: blanks, or folded line ends, and whether a line was ended.
Nothing between them ends the scalar. -/
def plainBlanks (c : Cursor) : List Char × Bool × Cursor :=
  let (blanks, c) := c.span (· == ' ')
  match c.lineBreak? with
  | none => (blanks, false, c)
  | some (first, c) =>
    if c.atDocumentMark then ([], true, c)
    else
      let (breaks, c) := plainBreaks (c.rest.length + 1) c
      match breaks with
      | none => ([], true, c)
      | some breaks => (folded first breaks, true, c)

/-- The end of a plain scalar. -/
structure PlainEnd where
  text : List Char
  endsLine : Bool
  cursor : Cursor

/-- The runs of a plain scalar; `blanks` stand before the next one, and `endsLine` says whether
they end a line. -/
def plainRuns (inFlow : Bool) (indent : Int) :
    (fuel : Nat) → (blanks : List Char) → (endsLine : Bool) → Cursor → PlainEnd
  | 0, _, endsLine, c => ⟨[], endsLine, c⟩
  | fuel + 1, blanks, endsLine, c =>
    let length := if c.head == '#' then 0 else plainRun inFlow c.rest
    if length = 0 then ⟨[], endsLine, c⟩
    else
      let run := c.rest.take length
      let (after, ends, c) := plainBlanks (c.forward length)
      if after.isEmpty || c.head == '#' || (!inFlow && (c.column : Int) < indent + 1) then
        ⟨blanks ++ run, ends, c⟩
      else
        let more := plainRuns inFlow indent fuel after ends c
        ⟨blanks ++ run ++ more.text, more.endsLine, more.cursor⟩

/-- A plain scalar at the cursor, under the indentation `indent`. -/
def plain (inFlow : Bool) (indent : Int) (c : Cursor) : PlainEnd :=
  plainRuns inFlow indent (c.rest.length + 1) [] false c

end ReleaseFetch.Yaml.Scalar
