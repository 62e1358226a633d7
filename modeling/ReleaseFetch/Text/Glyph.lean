/-
**Texts with halves of pairs.**

A character beyond the first plane is written as a pair of code units in some escapes.  An escape
may name one half of a pair alone, and the text that it stands in is still a text, although no
file can hold it: it is compared, quoted and refused like any other.  A name on a disk is made of
bytes.  Some of the halves stand for one byte each there, and a text with any other half names
nothing.

Main definitions:

* `ReleaseFetch.Text.Glyph` — a character, or half of a pair;
* `ReleaseFetch.Text.charsOf?` — the characters of glyphs without halves;
* `ReleaseFetch.Text.visibleChars` — the characters of glyphs, a mark for every half;
* `ReleaseFetch.Text.heldChars` — the same, where a half that no byte stands for is marked by NUL;
* `ReleaseFetch.Text.Stray`, `ReleaseFetch.Text.stray?` — the first halves that no byte stands for;
* `ReleaseFetch.Text.quotedGlyphs` — glyphs in quotes;
* `ReleaseFetch.Text.lowerGlyphs` — glyphs in lower case.

Main results:

* `ReleaseFetch.Text.charsOf?_map_char` — characters are glyphs without halves;
* `ReleaseFetch.Text.nul_mem_heldChars_iff` — the texts that no name can be made of.
-/

import ReleaseFetch.Text.Lowercase
import ReleaseFetch.Text.Quoted

set_option autoImplicit false

namespace ReleaseFetch.Text

/-- A character, or half of a pair of code units: the `n`-th half has the code `0xd800 + n`. -/
inductive Glyph where
  | char (c : Char)
  | half (n : Nat)
  deriving DecidableEq

/-! ### Characters -/

/-- The character that a glyph is. -/
def Glyph.char? : Glyph → Option Char
  | .char c => some c
  | .half _ => none

/-- The character of a glyph; a half is marked by the replacement character. -/
def Glyph.visible : Glyph → Char
  | .char c => c
  | .half _ => '\ufffd'

/-- The glyphs of characters. -/
def glyphs (cs : List Char) : List Glyph := cs.map .char

/-- The characters of glyphs, if there is no half among them. -/
def charsOf? (gs : List Glyph) : Option (List Char) := gs.mapM Glyph.char?

/-- The characters of glyphs, with a mark for every half. -/
def visibleChars (gs : List Glyph) : List Char := gs.map Glyph.visible

@[simp] theorem visibleChars_glyphs (cs : List Char) : visibleChars (glyphs cs) = cs := by
  simp [visibleChars, glyphs, Function.comp_def, Glyph.visible]

theorem charsOf?_map_char (cs : List Char) : charsOf? (glyphs cs) = some cs := by
  induction cs with
  | nil => rfl
  | cons c cs ih =>
    have : List.mapM Glyph.char? (List.map Glyph.char cs) = some cs := ih
    simp [charsOf?, glyphs, List.mapM_cons, this, Glyph.char?]

/-! ### Names on a disk -/

/-- The half stands for one byte of a name: these are `0xdc80` to `0xdcff`. -/
def isByteHalf (n : Nat) : Bool := 0x480 ≤ n && n < 0x500

/-- The character of a glyph of a name.  No name holds a half that no byte stands for, nor a NUL,
so the one is marked by the other. -/
def Glyph.held : Glyph → Char
  | .char c => c
  | .half n => if isByteHalf n then '\ufffd' else '\x00'

/-- The characters of a name, with marks for the halves. -/
def heldChars (gs : List Glyph) : List Char := gs.map Glyph.held

/-- The glyph is a half. -/
def Glyph.isHalf : Glyph → Bool
  | .char _ => false
  | .half _ => true

/-- Halves in a row of which the first one is no byte: where they start, which one is first, and
how many they are. -/
structure Stray where
  position : Nat
  first : Nat
  length : Nat
  deriving DecidableEq

/-- The first halves that no byte stands for, in glyphs from a position on. -/
def strayFrom? (position : Nat) : List Glyph → Option Stray
  | [] => none
  | .char _ :: rest => strayFrom? (position + 1) rest
  | .half n :: rest =>
    if isByteHalf n then strayFrom? (position + 1) rest
    else some ⟨position, n, (rest.takeWhile Glyph.isHalf).length + 1⟩

/-- The first halves that no byte stands for. -/
def stray? (gs : List Glyph) : Option Stray := strayFrom? 0 gs

theorem strayFrom?_isSome_iff {gs : List Glyph} {position : Nat} :
    (strayFrom? position gs).isSome ↔ ∃ n, .half n ∈ gs ∧ isByteHalf n = false := by
  induction gs generalizing position with
  | nil => simp [strayFrom?]
  | cons g gs ih =>
    cases g with
    | char c => simp [strayFrom?, ih]
    | half n => cases hn : isByteHalf n <;> simp [strayFrom?, ih, hn]

/-- **A name holds NUL** where its text does, or where the text cannot be encoded. -/
theorem nul_mem_heldChars_iff {gs : List Glyph} :
    '\x00' ∈ heldChars gs ↔ .char '\x00' ∈ gs ∨ (stray? gs).isSome := by
  rw [stray?, strayFrom?_isSome_iff, heldChars, List.mem_map]
  constructor
  · rintro ⟨g, hg, hheld⟩
    cases g with
    | char c => exact .inl (hheld ▸ hg)
    | half n =>
      cases hn : isByteHalf n with
      | true => simp [Glyph.held, hn] at hheld
      | false => exact .inr ⟨n, hg, hn⟩
  · rintro (hnul | ⟨n, hn, hstray⟩)
    · exact ⟨_, hnul, rfl⟩
    · exact ⟨_, hn, by simp [Glyph.held, hstray]⟩

/-- What is said of a name with halves that no byte stands for. -/
def Stray.text (s : Stray) : String :=
  let hex := String.ofList (hexDigits 4 (0xd800 + s.first))
  let place :=
    if s.length = 1 then s!"character '\\u{hex}' in position {s.position}"
    else s!"characters in position {s.position}-{s.position + s.length - 1}"
  s!"'utf-8' codec can't encode {place}: surrogates not allowed"

/-! ### Quotes and case -/

/-- One glyph inside quotes. -/
def escapedGlyph (quote : Char) : Glyph → List Char
  | .char c => escaped quote c
  | .half n => '\\' :: 'u' :: hexDigits 4 (0xd800 + n)

/-- The glyphs in quotes. -/
def quotedGlyphs (gs : List Glyph) : String :=
  let quote := quoteFor (visibleChars gs)
  String.ofList (quote :: gs.flatMap (escapedGlyph quote) ++ [quote])

/-- Lower case of glyphs; `run` holds the characters since the last half, last one first.  A half
is no letter, so the runs between halves do not depend on each other. -/
def lowerRuns (run : List Char) : List Glyph → List Glyph
  | [] => glyphs (lowerFrom [] run.reverse)
  | .char c :: rest => lowerRuns (c :: run) rest
  | .half n :: rest => glyphs (lowerFrom [] run.reverse) ++ .half n :: lowerRuns [] rest

/-- The glyphs in lower case. -/
def lowerGlyphs (gs : List Glyph) : List Glyph := lowerRuns [] gs

end ReleaseFetch.Text
