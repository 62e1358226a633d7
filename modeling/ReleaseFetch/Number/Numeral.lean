/-
**Numbers written as text.**

An integer or a decimal may stand between blanks, may carry a sign, may use the decimal digits of
any script, and may have single underscores between digits.  The four separators U+001C to U+001F
are blank elsewhere and are not skipped here.

Main definitions:

* `ReleaseFetch.Numeral.Fault` — why a text is no integer;
* `ReleaseFetch.Numeral.integer` — an integer in a given base;
* `ReleaseFetch.Numeral.real?` — a double-precision number;
* `ReleaseFetch.Numeral.digitLimit` — the greatest number of digits of an integer that is read.
-/

import ReleaseFetch.Number.Binary64
import ReleaseFetch.Text.Blank
import ReleaseFetch.Text.Digit
import ReleaseFetch.Text.Quoted

set_option autoImplicit false

namespace ReleaseFetch.Numeral

open Text

/-! ### Digits -/

/-- The blanks that may surround a number. -/
def isSkipped (c : Char) : Bool := isBlank c && !(0x1c ≤ c.toNat && c.toNat ≤ 0x1f)

/-- The value of a digit: a decimal digit of any script, or a letter. -/
def digit? (c : Char) : Option Nat :=
  match digitValue? c with
  | some v => some v
  | none =>
    if 'a' ≤ c && c ≤ 'z' then some (c.toNat - 'a'.toNat + 10)
    else if 'A' ≤ c && c ≤ 'Z' then some (c.toNat - 'A'.toNat + 10)
    else none

/-- The value of a digit below the base. -/
def digitIn? (base : Nat) (c : Char) : Option Nat := (digit? c).filter (· < base)

/-- Reads digits with single underscores between them.  `last` says whether a digit came just
before.  The digits are given with what follows them; `none` for a misplaced underscore. -/
def digits? (base : Nat) (last : Bool) : List Char → Option (List Nat × List Char)
  | [] => if last then some ([], []) else none
  | c :: rest =>
    match digitIn? base c with
    | some v => (digits? base true rest).map fun (ds, r) => (v :: ds, r)
    | none =>
      if c = '_' && last then digits? base false rest
      else if last then some ([], c :: rest)
      else none

/-- The number that digits stand for. -/
def valueOf (base : Nat) (ds : List Nat) : Nat := ds.foldl (fun n d => n * base + d) 0

/-- The sign, and what follows it. -/
def sign : List Char → Bool × List Char
  | '-' :: rest => (true, rest)
  | '+' :: rest => (false, rest)
  | cs => (false, cs)

/-! ### Integers -/

/-- Why a text is no integer. -/
inductive Fault where
  | malformed (text : String) (base : Nat)
  | tooLong (digits : Nat)
  deriving DecidableEq

/-- The greatest number of digits of an integer that is read, unless the base is a power of
two. -/
def digitLimit : Nat := 4300

/-- What is said of too many digits. -/
def limitHead : String := s!"Exceeds the limit ({digitLimit} digits) for integer string conversion"

/-- How the limit is raised. -/
def limitHint : String := "; use sys.set_int_max_str_digits() to increase the limit"

/-- What is said of a numeral with too many digits. -/
def limitText (digits : Nat) : String := s!"{limitHead}: value has {digits} digits{limitHint}"

/-- The integer has few enough digits to be written. -/
def isWritable (n : Int) : Bool := n.natAbs < Nat.pow 10 digitLimit

/-- What is said of an integer with too many digits to be written. -/
def unwritableText : String := limitHead ++ limitHint

/-- What is said of a text that is no integer, given in quotes.  A long text is shown in part. -/
def malformedText (base : Nat) (inQuotes : String) : String :=
  s!"invalid literal for int() with base {base}: " ++ String.ofList (inQuotes.toList.take 200)

/-- The words for a fault. -/
def Fault.text : Fault → String
  | .malformed s base => malformedText base (quoted s)
  | .tooLong n => limitText n

/-- The mark that may stand before the digits of a base. -/
def baseMarks : Nat → List Char
  | 2 => ['b', 'B']
  | 8 => ['o', 'O']
  | 16 => ['x', 'X']
  | _ => []

/-- Drops a zero and the mark of the base, with an underscore after them. -/
def dropMark (base : Nat) : List Char → List Char
  | '0' :: m :: rest =>
    if (baseMarks base).contains m then
      match rest with
      | '_' :: r => r
      | r => r
    else '0' :: m :: rest
  | cs => cs

/-- The base is a power of two. -/
def isBinaryBase (base : Nat) : Bool := base == 2 || base == 8 || base == 16

/-- The integer that a text stands for. -/
def integer (base : Nat) (s : String) : Except Fault Int :=
  let (negative, body) := sign (s.toList.dropWhile isSkipped)
  match digits? base false (dropMark base body) with
  | none => .error (.malformed s base)
  | some (ds, rest) =>
    if !isBinaryBase base && ds.length > digitLimit then .error (.tooLong ds.length)
    else if !rest.all isSkipped then .error (.malformed s base)
    else
      let n : Int := valueOf base ds
      .ok (if negative then -n else n)

/-! ### Decimals -/

/-- The exponent after the letter `e`, with what follows: no underscores at its ends. -/
def exponent? (cs : List Char) : Option (Int × List Char) :=
  let (negative, body) := sign cs
  (digits? 10 false body).map fun (ds, rest) =>
    let n : Int := valueOf 10 ds
    (if negative then -n else n, rest)

/-- Digits that may be missing. -/
def digitsOrNone? (cs : List Char) : Option (List Nat × List Char) :=
  match cs with
  | [] => some ([], [])
  | c :: _ => if (digitIn? 10 c).isSome then digits? 10 false cs else some ([], cs)

/-- An unsigned decimal, with all that follows it read: whole part, fraction, exponent. -/
def decimal? (negative : Bool) (cs : List Char) : Option Binary64 := do
  let (whole, afterWhole) ← digitsOrNone? cs
  let (fraction, afterFraction) ← match afterWhole with
    | '.' :: r => digitsOrNone? r
    | r => some ([], r)
  if whole.isEmpty && fraction.isEmpty then none
  let (exponent, rest) ← match afterFraction with
    | 'e' :: r => exponent? r
    | 'E' :: r => exponent? r
    | r => some (0, r)
  if !rest.isEmpty then none
  return .ofDecimal negative (valueOf 10 (whole ++ fraction)) (exponent - fraction.length)

/-- The number that a text stands for, infinities and the value that is no number included. -/
def real? (s : String) : Option Binary64 :=
  let (negative, body) := sign ((trimWhere isSkipped s).toList)
  match String.ofList (body.map Char.toLower) with
  | "inf" => some (.infinite negative)
  | "infinity" => some (.infinite negative)
  | "nan" => some .nan
  | _ => decimal? negative body

end ReleaseFetch.Numeral
