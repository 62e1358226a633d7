/-
**Blank characters.**

Trimming a text and cutting it into words both go by the same set: the white space of Unicode and
the four separators U+001C to U+001F.  A zero-width space and a byte order mark are not blank.

Main definitions:

* `ReleaseFetch.Text.isBlank` — the set;
* `ReleaseFetch.Text.trim` — a text without the blanks at its two ends;
* `ReleaseFetch.Text.wordsFrom` — the maximal runs without a blank.
-/

import ReleaseFetch.Text.Ranges

set_option autoImplicit false

namespace ReleaseFetch.Text

/-- The blank ranges. -/
def blankRanges : Ranges :=
  [(0x9, 0xd), (0x1c, 0x20), (0x85, 0x85), (0xa0, 0xa0), (0x1680, 0x1680), (0x2000, 0x200a),
   (0x2028, 0x2029), (0x202f, 0x202f), (0x205f, 0x205f), (0x3000, 0x3000)]

/-- The character is blank. -/
def isBlank (c : Char) : Bool := blankRanges.holds c

/-- Drops what satisfies the test from both ends. -/
def trimWhere (drop : Char → Bool) (s : String) : String :=
  String.ofList (((s.toList.dropWhile drop).reverse.dropWhile drop).reverse)

/-- The text without the blanks at its ends. -/
def trim (s : String) : String := trimWhere isBlank s

/-- The runs of characters that are not blank: `run` is the run being read, last character
first. -/
def wordsFrom (run : List Char) : List Char → List (List Char)
  | [] => if run.isEmpty then [] else [run.reverse]
  | c :: rest =>
    if isBlank c then
      if run.isEmpty then wordsFrom [] rest else run.reverse :: wordsFrom [] rest
    else wordsFrom (c :: run) rest

end ReleaseFetch.Text
