/-
**Percent escapes.**

Escapes stand for bytes of UTF-8.  Escapes that are not followed by two hexadecimal digits stay as
they are, and bytes that are no text become replacement characters.

Main definitions:

* `ReleaseFetch.Url.unescape` — the text that a text with escapes stands for.
-/

import ReleaseFetch.Url.Address
import ReleaseFetch.Number.Numeral

set_option autoImplicit false

namespace ReleaseFetch.Url

open Text

/-- The value of a hexadecimal digit. -/
def hexValue (c : Char) : Nat := (Numeral.digit? c).getD 0

/-- The bytes of plain characters, escapes taken out. -/
def unescapedBytes : List Char → List UInt8
  | [] => []
  | '%' :: a :: b :: rest =>
    if isHexDigit a && isHexDigit b then
      UInt8.ofNat (hexValue a * 16 + hexValue b) :: unescapedBytes rest
    else 37 :: unescapedBytes (a :: b :: rest)
  | c :: rest => UInt8.ofNat c.toNat :: unescapedBytes rest

/-- The character is of seven bits. -/
def isPlain (c : Char) : Bool := c.toNat < 0x80

/-- Takes escapes out of every run of plain characters; `run` is the run so far, last first. -/
def unescapeFrom (run : List Char) : List Char → List Char
  | [] => Utf8.decodeLossy (unescapedBytes run.reverse)
  | c :: rest =>
    if isPlain c then unescapeFrom (c :: run) rest
    else Utf8.decodeLossy (unescapedBytes run.reverse) ++ c :: unescapeFrom [] rest

/-- The text that a text with escapes stands for. -/
def unescape (cs : List Char) : List Char := unescapeFrom [] cs

end ReleaseFetch.Url
