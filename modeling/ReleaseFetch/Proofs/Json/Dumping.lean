/-
**Reading back what a writer wrote.**

The common writer of JSON puts a blank behind every comma and colon, and writes strings with plain
characters only: a character outside of ASCII is escaped by its code unit, or by a pair of them.
The reader takes such a text back to the value that it was written from.  A number of too many
digits and a value of too many levels are the only limits; halves of pairs and numbers that are no
integers are not considered.

Main definitions:

* `ReleaseFetch.Json.dump` — the text of a value;
* `ReleaseFetch.Json.Value.Exact` — the values that come back;
* `ReleaseFetch.Json.Value.depth` — the levels of arrays and objects.

Main results:

* `ReleaseFetch.Json.stringBody_dumpChars` — strings, by induction on the characters;
* `ReleaseFetch.Json.atom_dumpInteger` — integers;
* `ReleaseFetch.Json.value_dump` — values, by induction on their structure;
* `ReleaseFetch.Json.parse_dump` — a text that was written is read.
-/

import Mathlib.Tactic.SplitIfs
import ReleaseFetch.Json.Reader

set_option autoImplicit false

namespace ReleaseFetch.Json

open Text

/-! ### The writer -/

/-- A code unit, escaped. -/
def unitText (n : Nat) : List Char := '\\' :: 'u' :: hexDigits 4 n

/-- One character inside a string. -/
def dumpChar (c : Char) : List Char :=
  if c = '"' ∨ c = '\\' then ['\\', c]
  else if c = '\n' then ['\\', 'n']
  else if c = '\r' then ['\\', 'r']
  else if c = '\t' then ['\\', 't']
  else if c = '\x08' then ['\\', 'b']
  else if c = '\x0c' then ['\\', 'f']
  else if 0x20 ≤ c.toNat ∧ c.toNat ≤ 0x7e then [c]
  else if c.toNat < 0x10000 then unitText c.toNat
  else unitText (0xd800 + (c.toNat - 0x10000) / 0x400) ++
    unitText (0xdc00 + (c.toNat - 0x10000) % 0x400)

/-- A string in its quotes. -/
def dumpString (s : String) : List Char := '"' :: s.toList.flatMap dumpChar ++ ['"']

/-- An integer. -/
def dumpInteger (n : Int) : List Char :=
  (if n < 0 then ['-'] else []) ++ Nat.toDigits 10 n.natAbs

mutual

/-- The characters of a value.  Numbers that are no integers, and strings with halves of pairs, are
left out. -/
def dump : Value → List Char
  | .null => "null".toList
  | .bool true => "true".toList
  | .bool false => "false".toList
  | .integer n => dumpInteger n
  | .string s => dumpString s
  | .array vs => '[' :: dumpItems vs ++ [']']
  | .object fields => '{' :: dumpFields fields ++ ['}']
  | .real _ | .loose _ => []

/-- Items with commas between them. -/
def dumpItems : List Value → List Char
  | [] => []
  | [v] => dump v
  | v :: w :: rest => dump v ++ ',' :: ' ' :: dumpItems (w :: rest)

/-- Fields with commas between them. -/
def dumpFields : List (String × Value) → List Char
  | [] => []
  | [(n, v)] => dumpString n ++ ':' :: ' ' :: dump v
  | (n, v) :: f :: rest =>
    dumpString n ++ ':' :: ' ' :: dump v ++ ',' :: ' ' :: dumpFields (f :: rest)

end

/-! ### Values that come back -/

mutual

/-- The value has integers of few digits, texts, and objects in which every name comes once. -/
def Value.Exact : Value → Prop
  | .null | .bool _ | .string _ => True
  | .integer n => n.natAbs < Nat.pow 10 Numeral.digitLimit
  | .array vs => ExactItems vs
  | .object fields => (fields.map Prod.fst).Nodup ∧ ExactFields fields
  | .real _ | .loose _ => False

/-- All items come back. -/
def ExactItems : List Value → Prop
  | [] => True
  | v :: rest => v.Exact ∧ ExactItems rest

/-- The values of all fields come back. -/
def ExactFields : List (String × Value) → Prop
  | [] => True
  | (_, v) :: rest => v.Exact ∧ ExactFields rest

end

mutual

/-- The number of arrays and objects that are inside of each other. -/
def Value.depth : Value → Nat
  | .array vs => depthOfItems vs + 1
  | .object fields => depthOfFields fields + 1
  | _ => 0

/-- The levels of the deepest item. -/
def depthOfItems : List Value → Nat
  | [] => 0
  | v :: rest => max v.depth (depthOfItems rest)

/-- The levels of the deepest field. -/
def depthOfFields : List (String × Value) → Nat
  | [] => 0
  | (_, v) :: rest => max v.depth (depthOfFields rest)

end

/-! ### Code units -/

theorem isHexDigit_hexDigit : ∀ k < 16, Url.isHexDigit (hexDigit k) = true := by decide

theorem digit?_hexDigit : ∀ k < 16, Numeral.digit? (hexDigit k) = some k := by decide +kernel

/-- Four digits are read back. -/
theorem hex4?_hexDigits {n : Nat} (hn : n < 0x10000) (rest : List Char) :
    hex4? (hexDigits 4 n ++ rest) = some (n, rest) := by
  have hall (k : Nat) : Url.isHexDigit (hexDigit (k % 16)) = true :=
    isHexDigit_hexDigit _ (Nat.mod_lt _ (by decide))
  have hdigit (k : Nat) : Numeral.digit? (hexDigit (k % 16)) = some (k % 16) :=
    digit?_hexDigit _ (Nat.mod_lt _ (by decide))
  simp only [hexDigits, List.nil_append, List.cons_append, hex4?, List.all_cons, List.all_nil, hall,
    hdigit, List.map_cons, List.map_nil, Option.getD_some, Bool.and_true, if_true, Numeral.valueOf,
    List.foldl_cons, List.foldl_nil, Option.some.injEq, Prod.mk.injEq, and_true]
  omega

theorem codeUnit_hexDigits {n : Nat} (hn : n < 0x10000) {rest : List Char} (hrest : rest ≠ []) :
    codeUnit (hexDigits 4 n ++ rest) = .ok (n, rest) := by
  unfold codeUnit
  rw [hex4?_hexDigits hn]
  simp [hrest]

/-- A code unit that is no first half stands alone. -/
theorem unitEscape_alone {n : Nat} (hn : isHighUnit n = false) (rest : List Char) :
    unitEscape n rest = .ok (unitGlyph n, rest) := by
  unfold unitEscape
  split
  · simp [hn]
  · rfl

/-- The second half is read behind the first one. -/
theorem unitEscape_pair {high low : Nat} (hhigh : isHighUnit high = true)
    (hlow : isLowUnit low = true) {rest : List Char} (hrest : rest ≠ []) :
    unitEscape high (unitText low ++ rest) = .ok (.char (pairChar high low), rest) := by
  have hsize : low < 0x10000 := by
    simp only [isLowUnit, Bool.and_eq_true, decide_eq_true_eq] at hlow
    omega
  have hlength : 4 < (hexDigits 4 low ++ rest).length := by
    have hpos : 0 < rest.length := List.length_pos_iff.2 hrest
    simp only [hexDigits, List.length_append, List.length_cons, List.length_nil]
    omega
  simp only [unitText, List.cons_append, unitEscape, hhigh, hlength, decide_true, Bool.and_self,
    if_true, codeUnit_hexDigits hsize hrest, hlow]

/-! ### Strings -/

variable {opening rest r : List Char} {gs : List Glyph} {fuel : Nat}

/-- A character is no half of a pair. -/
theorem toNat_valid (c : Char) : c.toNat < 0xd800 ∨ 0xdfff < c.toNat ∧ c.toNat < 0x110000 := c.valid

/-- A short escape is read. -/
theorem stringBody_short {e x : Char} (he : e ≠ 'u') (hx : shortEscape? e = some x)
    (h : stringBody opening fuel rest = .ok (gs, r)) :
    stringBody opening (fuel + 1) ('\\' :: e :: rest) = .ok (.char x :: gs, r) := by
  unfold stringBody
  rw [if_neg (by decide), if_pos rfl]
  split
  · next heq => cases heq
  · next heq => exact absurd (List.cons.inj heq).1 he
  · next heq =>
    obtain ⟨rfl, rfl⟩ := List.cons.inj heq
    rw [hx]
    simp only [h]
    rfl

/-- An escaped code unit is read, with what follows it if it is a first half. -/
theorem stringBody_unit {n : Nat} (hn : n < 0x10000) {x : Glyph} {more : List Char}
    (hmore : more ≠ []) (hx : unitEscape n more = .ok (x, rest))
    (h : stringBody opening fuel rest = .ok (gs, r)) :
    stringBody opening (fuel + 1) (unitText n ++ more) = .ok (x :: gs, r) := by
  simp only [unitText, List.cons_append]
  rw [stringBody, if_neg (by decide), if_pos rfl]
  simp only [codeUnit_hexDigits hn hmore, hx, h, bind, Except.bind]
  rfl

/-- A character that stands for itself is read. -/
theorem stringBody_plain {c : Char} (hquote : c ≠ '"') (hback : c ≠ '\\') (hc : 0x20 ≤ c.toNat)
    (h : stringBody opening fuel rest = .ok (gs, r)) :
    stringBody opening (fuel + 1) (c :: rest) = .ok (.char c :: gs, r) := by
  unfold stringBody
  rw [if_neg hquote, if_neg hback, if_neg (Nat.not_lt.2 hc)]
  simp only [h]
  rfl

/-- A character of one code unit is the glyph of it. -/
theorem unitEscape_small {c : Char} (rest : List Char) :
    unitEscape c.toNat rest = .ok (.char c, rest) := by
  have hvalid := toNat_valid c
  have hhigh : isHighUnit c.toNat = false := by
    simp only [isHighUnit, Bool.and_eq_false_iff, decide_eq_false_iff_not]
    omega
  have hlow : isLowUnit c.toNat = false := by
    simp only [isLowUnit, Bool.and_eq_false_iff, decide_eq_false_iff_not]
    omega
  have hglyph : unitGlyph c.toNat = .char c := by
    simp [unitGlyph, hhigh, hlow, Char.ofNat_toNat]
  rw [unitEscape_alone hhigh, hglyph]

/-- A character of two code units is the glyph of the pair. -/
theorem unitEscape_large {c : Char} (hlarge : 0x10000 ≤ c.toNat) (hrest : rest ≠ []) :
    unitEscape (0xd800 + (c.toNat - 0x10000) / 0x400)
      (unitText (0xdc00 + (c.toNat - 0x10000) % 0x400) ++ rest) = .ok (.char c, rest) := by
  have hvalid := toNat_valid c
  have hhigh : isHighUnit (0xd800 + (c.toNat - 0x10000) / 0x400) = true := by
    simp only [isHighUnit, Bool.and_eq_true, decide_eq_true_eq]
    omega
  have hlow : isLowUnit (0xdc00 + (c.toNat - 0x10000) % 0x400) = true := by
    simp only [isLowUnit, Bool.and_eq_true, decide_eq_true_eq]
    omega
  have hpair : pairChar (0xd800 + (c.toNat - 0x10000) / 0x400)
      (0xdc00 + (c.toNat - 0x10000) % 0x400) = c := by
    have hsum : 0x10000 + (0xd800 + (c.toNat - 0x10000) / 0x400 - 0xd800) * 0x400 +
        (0xdc00 + (c.toNat - 0x10000) % 0x400 - 0xdc00) = c.toNat := by omega
    rw [pairChar, hsum, Char.ofNat_toNat]
  rw [unitEscape_pair hhigh hlow hrest, hpair]

/-- **One character of a string is read back.** -/
theorem stringBody_dumpChar (c : Char) (hrest : rest ≠ [])
    (h : stringBody opening fuel rest = .ok (gs, r)) :
    stringBody opening (fuel + 1) (dumpChar c ++ rest) = .ok (.char c :: gs, r) := by
  have hshort {e x : Char} (he : e ≠ 'u') (hx : shortEscape? e = some x) :
      stringBody opening (fuel + 1) (['\\', e] ++ rest) = .ok (.char x :: gs, r) :=
    stringBody_short he hx h
  unfold dumpChar
  split_ifs with hquoted hline hreturn htab hback hfeed hplain hsmall
  · rcases hquoted with rfl | rfl
    · exact hshort (by decide) rfl
    · exact hshort (by decide) rfl
  · exact hline ▸ hshort (by decide) rfl
  · exact hreturn ▸ hshort (by decide) rfl
  · exact htab ▸ hshort (by decide) rfl
  · exact hback ▸ hshort (by decide) rfl
  · exact hfeed ▸ hshort (by decide) rfl
  · exact stringBody_plain (not_or.1 hquoted).1 (not_or.1 hquoted).2 hplain.1 h
  · exact stringBody_unit hsmall hrest (unitEscape_small rest) h
  · have hvalid := toNat_valid c
    rw [List.append_assoc]
    exact stringBody_unit (by omega) (by simp [unitText])
      (unitEscape_large (Nat.not_lt.1 hsmall) hrest) h

/-- **The characters of a string are read back**, up to the closing quote. -/
theorem stringBody_dumpChars (cs : List Char) (hfuel : cs.length < fuel) :
    stringBody opening fuel (cs.flatMap dumpChar ++ '"' :: rest) = .ok (glyphs cs, rest) := by
  induction cs generalizing fuel with
  | nil =>
      obtain ⟨fuel, rfl⟩ : ∃ k, fuel = k + 1 := ⟨fuel - 1, by simp at hfuel; omega⟩
      simp [stringBody, glyphs]
  | cons c cs ih =>
      obtain ⟨fuel, rfl⟩ : ∃ k, fuel = k + 1 := ⟨fuel - 1, by simp at hfuel; omega⟩
      rw [List.flatMap_cons, List.append_assoc]
      exact stringBody_dumpChar c (by simp) (ih (by simpa using hfuel))

theorem length_dumpChar (c : Char) : 1 ≤ (dumpChar c).length := by
  unfold dumpChar
  repeat' split
  all_goals simp [unitText]

/-- A string is at least as long as its characters. -/
theorem length_dumpString (s : String) : s.toList.length + 2 ≤ (dumpString s).length := by
  have hchars (cs : List Char) : cs.length ≤ (cs.flatMap dumpChar).length := by
    induction cs with
    | nil => simp
    | cons c cs ih =>
        have hc := length_dumpChar c
        simp only [List.flatMap_cons, List.length_append, List.length_cons]
        omega
  have := hchars s.toList
  simp only [dumpString, List.length_append, List.length_cons, List.length_nil]
  omega

/-! ### Integers -/

/-- What follows a value inside of an array or object, or behind the whole text. -/
def Ends : List Char → Prop
  | [] => True
  | c :: _ => c = ',' ∨ c = ']' ∨ c = '}'

/-- The digits of a number have its value. -/
theorem numberValue_toDigits (n : Nat) : Url.numberValue (Nat.toDigits 10 n) = n := by
  have hfold := @Nat.ofDigitChars_eq_foldl 10 (Nat.toDigits 10 n) 0
  rw [Nat.ofDigitChars_ten_toDigits] at hfold
  simp only [Nat.mul_comm 10] at hfold
  exact hfold.symm

theorem isPlainDigit_of_mem {n : Nat} {c : Char} (hc : c ∈ Nat.toDigits 10 n) :
    isPlainDigit c = true := by
  have hdigit := Nat.isDigit_of_mem_toDigits (by decide) (by decide) hc
  simpa [isPlainDigit, Char.isDigit, Char.le_def] using hdigit

/-- The first digit is not zero, except for zero itself. -/
theorem toDigits_head (n : Nat) :
    ∃ d ds, Nat.toDigits 10 n = d :: ds ∧ (d = '0' → n = 0) := by
  induction n using Nat.strongRecOn with
  | ind n ih =>
      rcases Nat.lt_or_ge n 10 with hsmall | hlarge
      · have hdigit : ∀ k < 10, Nat.digitChar k = '0' → k = 0 := by decide
        exact ⟨_, [], Nat.toDigits_of_lt_base hsmall, hdigit n hsmall⟩
      · obtain ⟨d, ds, hdigits, hzero⟩ := ih (n / 10) (by omega)
        rw [Nat.toDigits_of_base_le (by decide) hlarge, hdigits]
        refine ⟨d, _, rfl, fun hd => ?_⟩
        have := hzero hd
        omega

theorem leadingDigits_ends {ds : List Char} (hds : ∀ c ∈ ds, isPlainDigit c = true)
    (hrest : Ends rest) : leadingDigits (ds ++ rest) = (ds, rest) := by
  have hstop : rest.takeWhile isPlainDigit = [] ∧ rest.dropWhile isPlainDigit = rest := by
    cases rest with
    | nil => exact ⟨rfl, rfl⟩
    | cons c more => rcases hrest with rfl | rfl | rfl <;> exact ⟨rfl, rfl⟩
  rw [leadingDigits, List.takeWhile_append_of_pos hds, List.dropWhile_append_of_pos hds, hstop.1,
    hstop.2, List.append_nil]

theorem wholePart?_toDigits (n : Nat) (hrest : Ends rest) :
    wholePart? (Nat.toDigits 10 n ++ rest) = some (Nat.toDigits 10 n, rest) := by
  obtain ⟨d, ds, hdigits, hzero⟩ := toDigits_head n
  by_cases hd : d = '0'
  · obtain rfl := hzero hd
    rfl
  · have hlead := leadingDigits_ends (fun _ => isPlainDigit_of_mem (n := n)) hrest
    rw [hdigits] at hlead ⊢
    rw [List.cons_append] at hlead ⊢
    unfold wholePart?
    split
    · next heq => exact absurd (List.cons.inj heq).1 hd
    · simp [hlead]

theorem fractionPart_ends (hrest : Ends rest) : fractionPart rest = ([], rest) := by
  cases rest with
  | nil => rfl
  | cons c more => rcases hrest with rfl | rfl | rfl <;> rfl

theorem exponentPart_ends (hrest : Ends rest) : exponentPart rest = ([], rest) := by
  rcases rest with _ | ⟨c, _ | ⟨s, more⟩⟩
  · rfl
  · rfl
  · rcases hrest with rfl | rfl | rfl <;> rfl

/-- The digits of a number are read back. -/
theorem unsignedNumber?_toDigits (negative : Bool) {n : Nat} (hn : n < Nat.pow 10 Numeral.digitLimit)
    (hrest : Ends rest) :
    unsignedNumber? negative (Nat.toDigits 10 n ++ rest) =
      some (.ok (.integer (if negative then -n else n)), rest) := by
  rw [Nat.pow_eq] at hn
  have hlength : ¬ (Nat.toDigits 10 n).length > Numeral.digitLimit :=
    Nat.not_lt.2 ((Nat.length_toDigits_le_iff (by decide) (by decide)).2 hn)
  simp only [unsignedNumber?, wholePart?_toDigits n hrest, Option.map_some,
    fractionPart_ends hrest, exponentPart_ends hrest, List.isEmpty_nil, Bool.and_self, if_true,
    hlength, if_false, numberValue_toDigits]

/-- A digit is no other character. -/
theorem ne_of_isPlainDigit {d x : Char} (hd : isPlainDigit d = true) (hx : isPlainDigit x = false) :
    d ≠ x :=
  fun heq => by simp [heq, hx] at hd

/-- An integer starts with its sign or a digit. -/
theorem dumpInteger_head (n : Int) :
    ∃ c more, dumpInteger n = c :: more ∧ (c = '-' ∨ isPlainDigit c = true) := by
  obtain ⟨d, ds, hdigits, -⟩ := toDigits_head n.natAbs
  have hd : isPlainDigit d = true :=
    isPlainDigit_of_mem (n := n.natAbs) (hdigits ▸ List.mem_cons_self)
  by_cases hneg : n < 0
  · exact ⟨'-', d :: ds, by simp [dumpInteger, hneg, hdigits], .inl rfl⟩
  · exact ⟨d, ds, by simp [dumpInteger, hneg, hdigits], .inr hd⟩

/-- A digit does not start a word, and no word starts with a sign and a digit. -/
theorem word?_digit {d : Char} (hd : isPlainDigit d = true) (more : List Char) :
    word? (d :: more) = none ∧ word? ('-' :: d :: more) = none := by
  have hne (c : Char) (hc : isPlainDigit c = false) : (c == d) = false :=
    beq_eq_false_iff_ne.2 (ne_of_isPlainDigit hd hc).symm
  constructor
  all_goals
    simp [word?, wordValues, List.find?, List.isPrefixOf, hne 'n', hne 't', hne 'f', hne 'N',
      hne 'I', hne '-', isPlainDigit]

/-- Without a sign, a number that is read is all that is read. -/
theorem atom_unsigned {cs : List Char} {v : Value} (hword : word? cs = none)
    (hsign : cs.head? ≠ some '-') (h : unsignedNumber? false cs = some (.ok v, rest)) :
    atom cs = .ok (v, rest) := by
  have hcs : ∀ more, cs ≠ '-' :: more := fun more heq => hsign (by rw [heq]; rfl)
  unfold atom
  rw [hword]
  simp [h]

/-- **An integer is read back.** -/
theorem atom_dumpInteger {n : Int} (hn : n.natAbs < Nat.pow 10 Numeral.digitLimit) (hrest : Ends rest) :
    atom (dumpInteger n ++ rest) = .ok (.integer n, rest) := by
  obtain ⟨d, ds, hdigits, -⟩ := toDigits_head n.natAbs
  have hd : isPlainDigit d = true :=
    isPlainDigit_of_mem (n := n.natAbs) (hdigits ▸ List.mem_cons_self)
  by_cases hneg : n < 0
  · have hread := unsignedNumber?_toDigits true hn hrest
    have hvalue : -(n.natAbs : Int) = n := by omega
    rw [hdigits, List.cons_append, if_pos rfl, hvalue] at hread
    simp only [dumpInteger, hneg, if_true, hdigits, List.cons_append, List.nil_append, atom,
      (word?_digit hd _).2, hread]
  · have hread := unsignedNumber?_toDigits false hn hrest
    have hvalue : (n.natAbs : Int) = n := by omega
    have hsign : d ≠ '-' := ne_of_isPlainDigit hd rfl
    rw [hdigits, List.cons_append, if_neg (by decide), hvalue] at hread
    simp only [dumpInteger, hneg, if_false, hdigits, List.cons_append, List.nil_append]
    exact atom_unsigned (word?_digit hd _).1 (by simpa using hsign) hread

/-! ### Values -/

theorem skipSpace_cons {c : Char} (hc : isSpace c = false) (cs : List Char) :
    skipSpace (c :: cs) = c :: cs := by
  simp [skipSpace, hc]

/-- One blank is passed over. -/
theorem skipSpace_blank {cs : List Char} (hcs : skipSpace cs = cs) :
    skipSpace (' ' :: cs) = cs := by
  have : skipSpace (' ' :: cs) = skipSpace cs := rfl
  rw [this, hcs]

/-- The first character of a value is an ASCII one that no blank and no closing bracket is. -/
theorem dump_head {v : Value} (hv : v.Exact) :
    ∃ c cs, dump v = c :: cs ∧ isSpace c = false ∧ c ≠ ']' ∧ c ≠ '\ufeff' := by
  cases v with
  | null => exact ⟨_, _, rfl, rfl, by decide, by decide⟩
  | bool b => cases b <;> exact ⟨_, _, rfl, rfl, by decide, by decide⟩
  | integer n =>
      obtain ⟨c, more, hdump, hc⟩ := dumpInteger_head n
      refine ⟨c, more, by rw [dump, hdump], ?_⟩
      rcases hc with rfl | hc
      · exact ⟨rfl, by decide, by decide⟩
      · have hne {x : Char} (hx : isPlainDigit x = false) : c ≠ x := ne_of_isPlainDigit hc hx
        refine ⟨?_, hne rfl, hne rfl⟩
        simp only [isSpace, Bool.or_eq_false_iff, beq_eq_false_iff_ne]
        exact ⟨⟨⟨hne rfl, hne rfl⟩, hne rfl⟩, hne rfl⟩
  | string s => exact ⟨_, _, rfl, rfl, by decide, by decide⟩
  | array vs => exact ⟨_, _, by rw [dump]; rfl, rfl, by decide, by decide⟩
  | object fields => exact ⟨_, _, by rw [dump]; rfl, rfl, by decide, by decide⟩
  | real x => exact hv.elim
  | loose gs => exact hv.elim

theorem skipSpace_dump {v : Value} (hv : v.Exact) (rest : List Char) :
    skipSpace (dump v ++ rest) = dump v ++ rest := by
  obtain ⟨c, cs, hdump, hc, -, -⟩ := dump_head hv
  rw [hdump, List.cons_append, skipSpace_cons hc]

/-- A string is read back behind its opening quote. -/
theorem string_dumpString (s : String) (hfuel : s.toList.length < fuel) :
    string fuel (s.toList.flatMap dumpChar ++ '"' :: rest) = .ok (glyphs s.toList, rest) :=
  stringBody_dumpChars s.toList hfuel

theorem ofGlyphs_glyphs (s : String) : Value.ofGlyphs (glyphs s.toList) = .string s := by
  simp [Value.ofGlyphs, charsOf?_map_char]

/-- A field with a new name comes last. -/
theorem withMember_new {s : String} {v : Value} {fields : List (String × Value)}
    (hs : s ∉ fields.map Prod.fst) :
    withMember (glyphs s.toList) v fields = fields ++ [(s, v)] := by
  simp only [withMember, charsOf?_map_char, String.ofList_toList]
  induction fields with
  | nil => rfl
  | cons f fields ih =>
      obtain ⟨hne, hs⟩ := not_or.1 (mt List.mem_cons.2 hs)
      simp only [Fields.set, if_neg (Ne.symm hne), ih hs, List.cons_append]

theorem notMem_of_nodup {s : String} {v : Value} {fields fs : List (String × Value)}
    (h : ((fields ++ (s, v) :: fs).map Prod.fst).Nodup) : s ∉ fields.map Prod.fst := by
  rw [List.map_append, List.nodup_append] at h
  exact fun hs => h.2.2 s hs s (by simp) rfl

/-! ### Steps of the reader -/

section Steps

variable {depth : Nat} {cs more : List Char} {c : Char} {v : Value} {vs : List Value} {s : String}
  {fields fs : List (String × Value)}

/-- What starts like no string, object or array is an atom. -/
theorem value_atom (hc : c ≠ '"' ∧ c ≠ '{' ∧ c ≠ '[') :
    value (fuel + 1) depth (c :: more) = atom (c :: more) := by
  simp [value, hc.1, hc.2.1, hc.2.2]

theorem value_array (hskip : skipSpace cs = cs) (hclose : cs.head? ≠ some ']')
    (h : items fuel depth cs = .ok (vs, rest)) :
    value (fuel + 1) (depth + 1) ('[' :: cs) = .ok (.array vs, rest) := by
  have hcs : ∀ more, cs ≠ ']' :: more := fun more heq => hclose (by rw [heq]; rfl)
  simp only [value, Nat.add_eq_zero_iff, Nat.one_ne_zero, and_false, if_false, hskip,
    Nat.add_sub_cancel]
  simp [h, bind, Except.bind, pure, Except.pure]

theorem value_object (hskip : skipSpace cs = cs) (hclose : cs.head? ≠ some '}')
    (h : members fuel depth [] cs = .ok (fs, rest)) :
    value (fuel + 1) (depth + 1) ('{' :: cs) = .ok (.object fs, rest) := by
  have hcs : ∀ more, cs ≠ '}' :: more := fun more heq => hclose (by rw [heq]; rfl)
  simp only [value, Nat.add_eq_zero_iff, Nat.one_ne_zero, and_false, if_false, hskip,
    Nat.add_sub_cancel]
  simp [h, bind, Except.bind, pure, Except.pure]

theorem items_last (h : value fuel depth cs = .ok (v, ']' :: rest)) :
    items (fuel + 1) depth cs = .ok ([v], rest) := by
  simp only [items, h, bind, Except.bind]
  rfl

theorem items_more (h : value fuel depth cs = .ok (v, ',' :: ' ' :: more))
    (hskip : skipSpace more = more) (hitems : items fuel depth more = .ok (vs, rest)) :
    items (fuel + 1) depth cs = .ok (v :: vs, rest) := by
  have hcomma : skipSpace (',' :: ' ' :: more) = ',' :: ' ' :: more := rfl
  simp only [items, h, bind, Except.bind, hcomma, skipSpace_blank hskip, hitems]
  rfl

theorem members_last (hs : s.toList.length < fuel) (hskip : skipSpace cs = cs)
    (h : value fuel depth cs = .ok (v, '}' :: rest)) :
    members (fuel + 1) depth fields (dumpString s ++ ':' :: ' ' :: cs) =
      .ok (withMember (glyphs s.toList) v fields, rest) := by
  have hcolon : skipSpace (':' :: ' ' :: cs) = ':' :: ' ' :: cs := rfl
  have hbrace : skipSpace ('}' :: rest) = '}' :: rest := rfl
  simp only [dumpString, List.cons_append, List.append_assoc, List.nil_append, members,
    string_dumpString s hs, bind, Except.bind, hcolon, skipSpace_blank hskip, h, hbrace]
  rfl

theorem members_more (hs : s.toList.length < fuel) (hskip : skipSpace cs = cs)
    (h : value fuel depth cs = .ok (v, ',' :: ' ' :: more)) (hmore : skipSpace more = more) :
    members (fuel + 1) depth fields (dumpString s ++ ':' :: ' ' :: cs) =
      members fuel depth (withMember (glyphs s.toList) v fields) more := by
  have hcolon : skipSpace (':' :: ' ' :: cs) = ':' :: ' ' :: cs := rfl
  have hcomma : skipSpace (',' :: ' ' :: more) = ',' :: ' ' :: more := rfl
  simp only [dumpString, List.cons_append, List.append_assoc, List.nil_append, members,
    string_dumpString s hs, bind, Except.bind, hcolon, skipSpace_blank hskip, h, hcomma,
    skipSpace_blank hmore]

end Steps

/-! ### Values come back -/

theorem length_dump_pos {v : Value} (hv : v.Exact) : 0 < (dump v).length := by
  obtain ⟨c, cs, hdump, -⟩ := dump_head hv
  simp [hdump]

/-- Items start with their first one. -/
theorem dumpItems_cons (v : Value) (vs : List Value) :
    ∃ more, dumpItems (v :: vs) = dump v ++ more := by
  cases vs with
  | nil => exact ⟨[], by simp [dumpItems]⟩
  | cons w vs => exact ⟨',' :: ' ' :: dumpItems (w :: vs), rfl⟩

/-- Fields start with the quote of a name. -/
theorem dumpFields_cons (f : String × Value) (fs : List (String × Value)) :
    ∃ more, dumpFields (f :: fs) = '"' :: more := by
  cases fs with
  | nil => exact ⟨_, by rw [dumpFields, dumpString]; rfl⟩
  | cons g fs => exact ⟨_, by rw [dumpFields, dumpString]; rfl⟩

theorem skipSpace_dumpItems {v : Value} (hv : v.Exact) (vs : List Value) (rest : List Char) :
    skipSpace (dumpItems (v :: vs) ++ rest) = dumpItems (v :: vs) ++ rest ∧
      (dumpItems (v :: vs) ++ rest).head? ≠ some ']' := by
  obtain ⟨more, hitems⟩ := dumpItems_cons v vs
  obtain ⟨c, cs, hdump, hc, hclose, -⟩ := dump_head hv
  rw [hitems, hdump]
  exact ⟨skipSpace_cons hc _, by simpa using hclose⟩

theorem skipSpace_dumpFields (f : String × Value) (fs : List (String × Value)) (rest : List Char) :
    skipSpace (dumpFields (f :: fs) ++ rest) = dumpFields (f :: fs) ++ rest ∧
      (dumpFields (f :: fs) ++ rest).head? ≠ some '}' := by
  obtain ⟨more, hfields⟩ := dumpFields_cons f fs
  rw [hfields]
  exact ⟨rfl, by simp⟩

mutual

/-- **A value is read back**, by induction on its structure. -/
theorem value_dump : ∀ (v : Value), v.Exact → ∀ {fuel depth : Nat} {rest : List Char},
    2 * (dump v).length ≤ fuel + 1 → v.depth ≤ depth → Ends rest →
    value (fuel + 1) depth (dump v ++ rest) = .ok (v, rest)
  | .null, _, _, _, _, _, _, _ => rfl
  | .bool true, _, _, _, _, _, _, _ => rfl
  | .bool false, _, _, _, _, _, _, _ => rfl
  | .integer n, hv, fuel, depth, rest, _, _, hrest => by
      obtain ⟨c, more, hdump, hc⟩ := dumpInteger_head n
      have hread := atom_dumpInteger hv hrest
      rw [dump]
      rw [hdump, List.cons_append] at hread ⊢
      have hother : c ≠ '"' ∧ c ≠ '{' ∧ c ≠ '[' := by
        rcases hc with rfl | hc
        · decide
        · exact ⟨ne_of_isPlainDigit hc rfl, ne_of_isPlainDigit hc rfl, ne_of_isPlainDigit hc rfl⟩
      rw [value_atom hother, hread]
  | .string s, _, fuel, depth, rest, hfuel, _, _ => by
      have hlength := length_dumpString s
      rw [dump] at hfuel
      simp only [dump, dumpString, List.cons_append, List.append_assoc, List.nil_append, value]
      rw [string_dumpString s (by omega)]
      simp only [bind, Except.bind, pure, Except.pure, ofGlyphs_glyphs]
  | .array [], _, fuel, depth + 1, rest, _, hdepth, _ => rfl
  | .array (v :: vs), hv, fuel, depth + 1, rest, hfuel, hdepth, _ => by
      simp only [dump, List.cons_append, List.length_cons, List.length_append] at hfuel
      obtain ⟨fuel, rfl⟩ : ∃ k, fuel = k + 1 := ⟨fuel - 1, by omega⟩
      obtain ⟨hskip, hclose⟩ := skipSpace_dumpItems hv.1 vs (']' :: rest)
      have hitems : items (fuel + 1) depth (dumpItems (v :: vs) ++ ']' :: rest) = _ :=
        items_dump (v :: vs) hv (by simp) (by omega) (Nat.succ_le_succ_iff.1 hdepth)
      rw [dump, List.cons_append, List.cons_append, List.append_assoc]
      exact value_array hskip hclose hitems
  | .object [], hv, fuel, depth + 1, rest, hfuel, hdepth, _ => rfl
  | .object (f :: fields), hv, fuel, depth + 1, rest, hfuel, hdepth, _ => by
      simp only [dump, List.cons_append, List.length_cons, List.length_append] at hfuel
      obtain ⟨fuel, rfl⟩ : ∃ k, fuel = k + 1 := ⟨fuel - 1, by omega⟩
      obtain ⟨hskip, hclose⟩ := skipSpace_dumpFields f fields ('}' :: rest)
      have hmembers : members (fuel + 1) depth [] (dumpFields (f :: fields) ++ '}' :: rest) = _ :=
        members_dump (f :: fields) hv.2 (by simp) hv.1 (by omega) (Nat.succ_le_succ_iff.1 hdepth)
      rw [dump, List.cons_append, List.cons_append, List.append_assoc]
      exact value_object hskip hclose hmembers
  | .array _, _, _, 0, _, _, hdepth, _ => absurd hdepth (Nat.not_succ_le_zero _)
  | .object _, _, _, 0, _, _, hdepth, _ => absurd hdepth (Nat.not_succ_le_zero _)
  | .real _, hv, _, _, _, _, _, _ => hv.elim
  | .loose _, hv, _, _, _, _, _, _ => hv.elim

/-- Items are read back, up to the closing bracket. -/
theorem items_dump : ∀ (vs : List Value), ExactItems vs → vs ≠ [] →
    ∀ {fuel depth : Nat} {rest : List Char}, 2 * (dumpItems vs).length ≤ fuel →
    depthOfItems vs ≤ depth → items (fuel + 1) depth (dumpItems vs ++ ']' :: rest) = .ok (vs, rest)
  | [], _, hne, _, _, _, _, _ => absurd rfl hne
  | [v], hvs, _, fuel, depth, rest, hfuel, hdepth => by
      have hpos := length_dump_pos hvs.1
      rw [dumpItems] at hfuel ⊢
      obtain ⟨fuel, rfl⟩ : ∃ k, fuel = k + 1 := ⟨fuel - 1, by omega⟩
      exact items_last (value_dump v hvs.1 hfuel (Nat.max_le.1 hdepth).1 (.inr (.inl rfl)))
  | v :: w :: vs, hvs, _, fuel, depth, rest, hfuel, hdepth => by
      have hpos := length_dump_pos hvs.1
      simp only [dumpItems, List.length_append, List.length_cons] at hfuel
      obtain ⟨fuel, rfl⟩ : ∃ k, fuel = k + 1 := ⟨fuel - 1, by omega⟩
      rw [dumpItems, List.append_assoc]
      exact items_more
        (value_dump v hvs.1 (by omega) (Nat.max_le.1 hdepth).1 (.inl rfl))
        (skipSpace_dumpItems hvs.2.1 vs _).1
        (items_dump (w :: vs) hvs.2 (by simp) (by omega) (Nat.max_le.1 hdepth).2)

/-- Fields are read back behind those that came before, up to the closing brace. -/
theorem members_dump : ∀ (fs : List (String × Value)), ExactFields fs → fs ≠ [] →
    ∀ {fuel depth : Nat} {rest : List Char} {fields : List (String × Value)},
    ((fields ++ fs).map Prod.fst).Nodup → 2 * (dumpFields fs).length ≤ fuel →
    depthOfFields fs ≤ depth →
    members (fuel + 1) depth fields (dumpFields fs ++ '}' :: rest) = .ok (fields ++ fs, rest)
  | [], _, hne, _, _, _, _, _, _, _ => absurd rfl hne
  | [(s, v)], hvs, _, fuel, depth, rest, fields, hnodup, hfuel, hdepth => by
      have hlength := length_dumpString s
      simp only [dumpFields, List.length_append, List.length_cons] at hfuel
      obtain ⟨fuel, rfl⟩ : ∃ k, fuel = k + 1 := ⟨fuel - 1, by omega⟩
      rw [dumpFields, List.append_assoc, ← withMember_new (notMem_of_nodup hnodup)]
      exact members_last (by omega) (skipSpace_dump hvs.1 _)
        (value_dump v hvs.1 (by omega) (Nat.max_le.1 hdepth).1 (.inr (.inr rfl)))
  | (s, v) :: f :: fs, hvs, _, fuel, depth, rest, fields, hnodup, hfuel, hdepth => by
      have hlength := length_dumpString s
      simp only [dumpFields, List.length_append, List.length_cons] at hfuel
      obtain ⟨fuel, rfl⟩ : ∃ k, fuel = k + 1 := ⟨fuel - 1, by omega⟩
      have hmore : members (fuel + 1) depth (fields ++ [(s, v)])
          (dumpFields (f :: fs) ++ '}' :: rest) = _ :=
        members_dump (f :: fs) hvs.2 (by simp) (by simpa using hnodup) (by omega)
          (Nat.max_le.1 hdepth).2
      rw [List.append_assoc, List.singleton_append, ← withMember_new (notMem_of_nodup hnodup)]
        at hmore
      rw [← hmore]
      simp only [dumpFields, List.append_assoc, List.cons_append]
      exact members_more (by omega) (skipSpace_dump hvs.1 _)
        (value_dump v hvs.1 (by omega) (Nat.max_le.1 hdepth).1 (.inl rfl))
        (skipSpace_dumpFields f fs _).1

end

/-! ### Texts come back -/

/-- **A text that was written is read**, and gives the value that it was written from. -/
theorem parse_dump {v : Value} (hv : v.Exact) (hdepth : v.depth ≤ depthLimit) :
    parse (String.ofList (dump v)) = .ok v := by
  obtain ⟨c, cs, hdump, -, -, hmark⟩ := dump_head hv
  have hread : value (2 * (dump v).length + 1 + 1) depthLimit (dump v ++ []) = .ok (v, []) :=
    value_dump v hv (by omega) hdepth trivial
  have hskip := skipSpace_dump hv []
  rw [List.append_nil] at hread hskip
  have hfirst : (dump v).head? ≠ some '\ufeff' := by simpa [hdump] using hmark
  simp only [parse, String.toList_ofList, beq_iff_eq, hfirst, if_false, hskip, hread, bind,
    Except.bind]
  rfl

end ReleaseFetch.Json
