/-
**A place in a text.**

A cursor is what is left of a text, with the line and the column that are reached.  Behind the end
of the text there is nothing but the null character, which a text itself cannot hold.  A text is
fetched page by page, and the next page may be unreadable: the text is then cut off, and whoever
comes to the cut meets the fault that waits there.

Main definitions:

* `ReleaseFetch.Yaml.Cursor`, with `Cursor.peek`, `Cursor.forward`, `Cursor.span` and
  `Cursor.lineBreak?`;
* `ReleaseFetch.Yaml.Cursor.fault` — the fault of a text that is not of the format from here on;
* `ReleaseFetch.Yaml.Fault` — why a text has no value;
* `ReleaseFetch.Yaml.isAllowed` — the characters that a text may hold.
-/

import ReleaseFetch.Failure

set_option autoImplicit false

namespace ReleaseFetch.Yaml

/-! ### Faults -/

/-- Why a text has no value: it is not of the format, one of its scalars is not what its tag says,
or its bytes are no text. -/
inductive Fault where
  | malformed
  | value (kind : ValueFault) (text : String)
  | encoding (f : Text.Utf8.Fault)
  deriving DecidableEq

/-- The fault of values that are inside of too many others. -/
def Fault.tooDeep : Fault := .value .recursion "maximum recursion depth exceeded"

/-! ### Characters -/

/-- The character may stand in a text. -/
def isAllowed (c : Char) : Bool :=
  c == '\t' || c == '\n' || c == '\r' || (' ' ≤ c && c ≤ '~') || c == '\x85' ||
    (0xa0 ≤ c.toNat && c.toNat ≤ 0xd7ff) || ('\ue000' ≤ c && c ≤ '\ufffd') || 0x10000 ≤ c.toNat

/-- The character ends a line. -/
def isBreak (c : Char) : Bool :=
  c == '\n' || c == '\r' || c == '\x85' || c == '\u2028' || c == '\u2029'

/-- The end of the text. -/
def isEnd (c : Char) : Bool := c == '\x00'

/-- The end of a line or of the text. -/
def isBreakOrEnd (c : Char) : Bool := isBreak c || isEnd c

/-- A space, the end of a line or of the text. -/
def isSpaceOrEnd (c : Char) : Bool := c == ' ' || isBreakOrEnd c

/-- A space, a tab, the end of a line or of the text. -/
def isBlankOrEnd (c : Char) : Bool := c == '\t' || isSpaceOrEnd c

/-- A space or a tab. -/
def isSpaceOrTab (c : Char) : Bool := c == ' ' || c == '\t'

/-- A letter, a digit, a dash or an underscore. -/
def isWordChar (c : Char) : Bool := c.isAlphanum || c == '-' || c == '_'

/-! ### Cursors -/

/-- A place in a text.  A text that is `cut` off goes on where it ends, but cannot be read
there. -/
structure Cursor where
  rest : List Char
  index : Nat
  line : Nat
  column : Nat
  cut : Option Fault

namespace Cursor

/-- The start of a text. -/
def start (cs : List Char) (cut : Option Fault) : Cursor := ⟨cs, 0, 0, 0, cut⟩

/-- The cursor has come to the cut. -/
def meets? (c : Cursor) : Option Fault := if c.rest.isEmpty then c.cut else none

/-- The fault of a text that is not of the format from here on. -/
def fault (c : Cursor) : Fault := c.meets?.getD .malformed

/-- The text is not of the format from here on. -/
def fail {α : Type} (c : Cursor) : Except Fault α := .error c.fault

/-- The character `n` places on. -/
def peek (c : Cursor) (n : Nat) : Char := (c.rest.drop n).headD '\x00'

/-- The character at the cursor. -/
def head (c : Cursor) : Char := c.rest.headD '\x00'

/-- The next place. -/
def next (c : Cursor) : Cursor :=
  match c.rest with
  | [] => c
  | x :: rest =>
    if isBreak x && !(x == '\r' && rest.head? == some '\n') then
      ⟨rest, c.index + 1, c.line + 1, 0, c.cut⟩
    else ⟨rest, c.index + 1, c.line, if x == '\ufeff' then c.column else c.column + 1, c.cut⟩

/-- The place `n` characters on. -/
def forward : Cursor → Nat → Cursor
  | c, 0 => c
  | c, n + 1 => c.next.forward n

/-- The characters of a class from the cursor on, and the place behind them. -/
def span (p : Char → Bool) (c : Cursor) : List Char × Cursor :=
  let run := c.rest.takeWhile p
  (run, c.forward run.length)

/-- The place behind the characters of a class. -/
def skip (p : Char → Bool) (c : Cursor) : Cursor := (c.span p).2

/-- The end of a line at the cursor, as the character that it counts for, and the place behind
it. -/
def lineBreak? (c : Cursor) : Option (Char × Cursor) :=
  match c.rest with
  | '\r' :: '\n' :: _ => some ('\n', c.forward 2)
  | x :: _ =>
    if x == '\u2028' || x == '\u2029' then some (x, c.next)
    else if isBreak x then some ('\n', c.next)
    else none
  | [] => none

/-- The cursor stands before three given characters and then a blank. -/
def atMark (c : Cursor) (x : Char) : Bool :=
  [x, x, x].isPrefixOf c.rest && isBlankOrEnd (c.peek 3)

/-- The cursor stands before the mark of a document. -/
def atDocumentMark (c : Cursor) : Bool := c.atMark '-' || c.atMark '.'

end Cursor

end ReleaseFetch.Yaml
