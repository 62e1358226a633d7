/-
**The shortest text of a double-precision number.**

Among the decimal fractions that read back as a number, the one with the fewest digits is written,
and of those the nearest.  For each digit count there are at most two candidates worth a test: the
neighbours of the number on the grid of that many digits.

Main definitions:

* `ReleaseFetch.Binary64.Digits` — decimal digits with the power of ten of the last one;
* `ReleaseFetch.Binary64.shortest` — the fewest digits that read back;
* `ReleaseFetch.Binary64.text` — the number written out.
-/

import ReleaseFetch.Number.Binary64

set_option autoImplicit false

namespace ReleaseFetch.Binary64

/-! ### Digits -/

/-- The `value` times ten to the `exponent`. -/
structure Digits where
  value : Nat
  exponent : Int
  deriving DecidableEq

/-- A quotient of natural numbers, for exact comparison. -/
structure Ratio where
  num : Nat
  den : Nat

/-- The first quotient is below the second. -/
def Ratio.lt (a b : Ratio) : Bool := a.num * b.den < b.num * a.den

/-- The first quotient is not above the second. -/
def Ratio.le (a b : Ratio) : Bool := a.num * b.den ≤ b.num * a.den

/-- The number `n` times two to the `e`, as a quotient. -/
def Ratio.binary (n : Nat) (e : Int) : Ratio :=
  if 0 ≤ e then ⟨n * Nat.pow 2 e.toNat, 1⟩ else ⟨n, Nat.pow 2 (-e).toNat⟩

/-- The number `n` times ten to the `e`, as a quotient. -/
def Ratio.decimal (n : Nat) (e : Int) : Ratio :=
  if 0 ≤ e then ⟨n * Nat.pow 10 e.toNat, 1⟩ else ⟨n, Nat.pow 10 (-e).toNat⟩

/-- The ends of the interval of reals that round to `m` times two to the `e`.  Below a power of
two the numbers are twice as dense, so the lower end is nearer. -/
def bounds (m : Nat) (e : Int) : Ratio × Ratio :=
  let low :=
    if m = Nat.pow 2 52 && e > leastExponent then .binary (4 * m - 1) (e - 2)
    else .binary (2 * m - 1) (e - 1)
  (low, .binary (2 * m + 1) (e - 1))

/-- The decimal reads back as `m` times two to the `e`: the ends count for an even `m`. -/
def readsBack (m : Nat) (e : Int) (d : Digits) : Bool :=
  let r := Ratio.decimal d.value d.exponent
  let (low, high) := bounds m e
  if m % 2 = 0 then low.le r && r.le high else low.lt r && r.lt high

/-- The largest power of ten that is not above the quotient, searched downwards from `k`. -/
def decimalMagnitude (v : Ratio) : (steps : Nat) → Int → Int
  | 0, k => k
  | steps + 1, k => if (Ratio.decimal 1 k).le v then k else decimalMagnitude v steps (k - 1)

/-- The two neighbours of `v` on the grid of multiples of ten to the `p`; the nearer first, and of
two equally near the even one. -/
def neighbours (v : Ratio) (p : Int) : Digits × Digits :=
  let (num, den) :=
    if 0 ≤ p then (v.num, v.den * Nat.pow 10 p.toNat)
    else (v.num * Nat.pow 10 (-p).toNat, v.den)
  let below := num / den
  let near := roundHalfEven num den
  let far := if near = below then below + 1 else below
  (⟨near, p⟩, ⟨far, p⟩)

/-- The first grid, from coarse to fine, with a point that reads back. -/
def searchGrids (m : Nat) (e : Int) (v : Ratio) (top : Int) : (left : Nat) → Nat → Digits
  | 0, count => (neighbours v (top - count)).1
  | left + 1, count =>
    let (near, far) := neighbours v (top - count)
    if readsBack m e near then near
    else if readsBack m e far then far
    else searchGrids m e v top left (count + 1)

/-- The fewest digits that read back as `m` times two to the `e`, for a positive `m`. -/
def shortest (m : Nat) (e : Int) : Digits :=
  let v := Ratio.binary m e
  let guess := ((Nat.log2 m : Int) + e) * 30103 / 100000 + 2
  searchGrids m e v (decimalMagnitude v 8 guess) 17 0

/-! ### Layout -/

/-- Drops zeros from the end. -/
def withoutTrailingZeros (cs : List Char) : List Char :=
  (cs.reverse.dropWhile (· == '0')).reverse

/-- The exponents, of the leading digit, that are written with a plain decimal point. -/
def isPositional (exponent : Int) : Bool := -4 ≤ exponent && exponent < 16

/-- Writes digits whose leading one stands at ten to the `exponent`. -/
def layOut (digits : List Char) (exponent : Int) : List Char :=
  let zeros (n : Int) := List.replicate n.toNat '0'
  if isPositional exponent then
    if exponent < 0 then '0' :: '.' :: zeros (-exponent - 1) ++ digits
    else
      let whole := digits.take (exponent.toNat + 1)
      let rest := digits.drop (exponent.toNat + 1)
      whole ++ zeros (exponent + 1 - digits.length) ++ '.' :: (if rest.isEmpty then ['0'] else rest)
  else
    let fraction := digits.drop 1
    let size := (toString exponent.natAbs).toList
    digits.take 1 ++ (if fraction.isEmpty then [] else '.' :: fraction) ++
      'e' :: (if exponent < 0 then '-' else '+') :: (if size.length < 2 then '0' :: size else size)

/-- The number written out: the fewest digits that read back, with a point or an exponent. -/
def text : Binary64 → String
  | .nan => "nan"
  | .infinite s => if s then "-inf" else "inf"
  | .finite s m e =>
    let size :=
      if m = 0 then ['0', '.', '0']
      else
        let d := shortest m e
        let all := (toString d.value).toList
        layOut (withoutTrailingZeros all) (d.exponent + all.length - 1)
    String.ofList (if s then '-' :: size else size)

end ReleaseFetch.Binary64
