/-
**Residues of numbers.**

Every number has a residue modulo the prime `2 ^ 61 - 1`, and numbers that are equal have the same
one, whether they are written as integers or as decimals: two to the power sixty-one counts as one,
so a negative power of two is a positive one.  A table that keeps numbers by their residues finds a
number again however it is written.

Main definitions:

* `ReleaseFetch.Residue.ofInt`, `ReleaseFetch.Residue.ofReal` — the residues, with a sign;
* `ReleaseFetch.Residue.order` — the places that numbers get in a table, first place first.
-/

import ReleaseFetch.Number.Binary64

set_option autoImplicit false

namespace ReleaseFetch.Residue

/-- The prime that residues are taken by. -/
def modulus : Nat := Nat.pow 2 61 - 1

/-- A residue with a sign; minus one is not used and counts as minus two. -/
def signed (negative : Bool) (size : Nat) : Int :=
  if negative then (if size = 1 then -2 else -(size : Int)) else size

/-- The residue of an integer. -/
def ofInt (n : Int) : Int := signed (n < 0) (n.natAbs % modulus)

/-- The power of two with the same residue, its exponent below sixty-one. -/
def powerOfTwo (exponent : Int) : Nat := Nat.pow 2 (exponent % 61).toNat

/-- The residue of a double-precision number; `none` for the value that is no number. -/
def ofReal : Binary64 → Option Int
  | .nan => none
  | .infinite negative => some (if negative then -314159 else 314159)
  | .finite negative m e => some (signed negative (m * powerOfTwo e % modulus))

/-! ### A table -/

/-- The size of a table for so many numbers. -/
def tableSize : (fuel : Nat) → (size count : Nat) → Nat
  | 0, size, _ => size
  | fuel + 1, size, count => if size ≤ 2 * count then tableSize fuel (2 * size) count else size

/-- The size of the table that `count` numbers are put into. -/
def sizeFor (count : Nat) : Nat := if count * 5 ≥ 21 then tableSize count 8 count else 8

/-- The places that are tried for a number in a table of a size, in order: a run of neighbours,
then a run somewhere else. -/
def places (size : Nat) : (fuel : Nat) → (rest i : Nat) → List Nat
  | 0, _, _ => []
  | fuel + 1, rest, i =>
    let run := if i + 9 < size then (List.range 10).map (i + ·) else [i]
    run ++ places size fuel (rest / 32) ((i * 5 + 1 + rest / 32) % size)

/-- The places that are tried for a residue. -/
def placesOf (size : Nat) (residue : Int) : List Nat :=
  let bits := (residue % (Nat.pow 2 64 : Nat)).toNat
  places size (size + 13) bits (bits % size)

/-- Puts items at the first place that is free for each. -/
def fillTable {α : Type} (size : Nat) (taken : List (Nat × α)) :
    List (Int × α) → List (Nat × α)
  | [] => taken
  | (residue, a) :: rest =>
    let isFree (i : Nat) := (taken.lookup i).isNone
    fillTable size (taken ++ [(((placesOf size residue).find? isFree).getD size, a)]) rest

/-- Items in the order of their places in a table, given with their residues in the order in which
they come to it. -/
def order {α : Type} (items : List (Int × α)) : List α :=
  ((fillTable (sizeFor items.length) [] items).mergeSort fun x y => x.1 ≤ y.1).map (·.2)

end ReleaseFetch.Residue
