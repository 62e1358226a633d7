/-
**Exact double-precision numbers.**

A timeout is a double-precision number, and its text has to come out digit for digit.  Here such a
number is a sign, a significand and a power of two, and rounding is done on exact integers, so
nothing depends on the arithmetic of the machine.

Main definitions:

* `ReleaseFetch.Binary64` — the numbers, with the infinities and the one value that is no number;
* `ReleaseFetch.Binary64.ofRatio` — the number nearest to a quotient, ties to the even significand;
* `ReleaseFetch.Binary64.add`, `ReleaseFetch.Binary64.mul` — exact results, rounded once;
* `ReleaseFetch.Binary64.isAtMostZero` — the test that a timeout must fail.
-/

set_option autoImplicit false

namespace ReleaseFetch

/-- A double-precision number.  A finite one is the significand times two to the exponent. -/
inductive Binary64 where
  | nan
  | infinite (negative : Bool)
  | finite (negative : Bool) (significand : Nat) (exponent : Int)
  deriving DecidableEq, Inhabited

namespace Binary64

/-! ### Rounding -/

/-- The integer nearest to `num / den`, a half going to the even one. -/
def roundHalfEven (num den : Nat) : Nat :=
  let q := num / den
  let twice := 2 * (num % den)
  if twice < den then q
  else if twice = den then q + q % 2
  else q + 1

/-- The quotient `num / den` is at least two to the power `k`. -/
def reaches (num den : Nat) (k : Int) : Bool :=
  if 0 ≤ k then den * Nat.pow 2 k.toNat ≤ num else den ≤ num * Nat.pow 2 (-k).toNat

/-- The largest power of two not above the positive quotient `num / den`. -/
def magnitude (num den : Nat) : Int :=
  let guess : Int := (Nat.log2 num : Int) - Nat.log2 den
  if reaches num den guess then guess else guess - 1

/-- The exponent of the numbers nearest to zero. -/
def leastExponent : Int := -1074

/-- The largest exponent a number can have. -/
def greatestExponent : Int := 971

/-- The significand and exponent, or infinity where the exponent is out of range. -/
def pack (negative : Bool) (significand : Nat) (exponent : Int) : Binary64 :=
  if significand = Nat.pow 2 53 then
    if exponent + 1 > greatestExponent then .infinite negative
    else .finite negative (Nat.pow 2 52) (exponent + 1)
  else if exponent > greatestExponent then .infinite negative
  else .finite negative significand exponent

/-- The number nearest to `num / den`, with the sign given. -/
def ofRatio (negative : Bool) (num den : Nat) : Binary64 :=
  if num = 0 then .finite negative 0 leastExponent
  else
    let exponent := max (magnitude num den - 52) leastExponent
    let significand :=
      if 0 ≤ exponent then roundHalfEven num (den * Nat.pow 2 exponent.toNat)
      else roundHalfEven (num * Nat.pow 2 (-exponent).toNat) den
    pack negative significand exponent

/-- The number nearest to an integer. -/
def ofInt (n : Int) : Binary64 := ofRatio (n < 0) n.natAbs 1

/-- The number nearest to `significand` times two to the `exponent`. -/
def ofScaled (negative : Bool) (significand : Nat) (exponent : Int) : Binary64 :=
  if 0 ≤ exponent then ofRatio negative (significand * Nat.pow 2 exponent.toNat) 1
  else ofRatio negative significand (Nat.pow 2 (-exponent).toNat)

/-- The number nearest to `digits` times ten to the `exponent`.  Powers that cannot change the
outcome are not computed. -/
def ofDecimal (negative : Bool) (digits : Nat) (exponent : Int) : Binary64 :=
  if digits = 0 then .finite negative 0 leastExponent
  else
    let top : Int := exponent + (Nat.log2 digits : Int) / 3 + 1
    if exponent > 400 then .infinite negative
    else if top < -400 then .finite negative 0 leastExponent
    else if 0 ≤ exponent then ofRatio negative (digits * Nat.pow 10 exponent.toNat) 1
    else ofRatio negative digits (Nat.pow 10 (-exponent).toNat)

/-! ### Arithmetic -/

/-- The same number with the other sign. -/
def negate : Binary64 → Binary64
  | .nan => .nan
  | .infinite s => .infinite (!s)
  | .finite s m e => .finite (!s) m e

/-- The product, rounded once. -/
def mul : Binary64 → Binary64 → Binary64
  | .nan, _ => .nan
  | _, .nan => .nan
  | .infinite s, .infinite t => .infinite (s != t)
  | .infinite s, .finite t m _ => if m = 0 then .nan else .infinite (s != t)
  | .finite s m _, .infinite t => if m = 0 then .nan else .infinite (s != t)
  | .finite s m e, .finite t n f => ofScaled (s != t) (m * n) (e + f)

/-- A finite number as an integer times two to the power `base`, which is at most its exponent. -/
def scaledTo (base : Int) (negative : Bool) (significand : Nat) (exponent : Int) : Int :=
  let size : Int := (significand * Nat.pow 2 (exponent - base).toNat : Nat)
  if negative then -size else size

/-- The sum, rounded once.  Only two negative zeros have a negative zero as their sum. -/
def add : Binary64 → Binary64 → Binary64
  | .nan, _ => .nan
  | _, .nan => .nan
  | .infinite s, .infinite t => if s = t then .infinite s else .nan
  | .infinite s, .finite _ _ _ => .infinite s
  | .finite _ _ _, .infinite t => .infinite t
  | .finite s m e, .finite t n f =>
    let base := min e f
    let total := scaledTo base s m e + scaledTo base t n f
    if total = 0 then .finite (s && t) 0 leastExponent
    else ofScaled (total < 0) total.natAbs base

/-! ### Comparison -/

/-- The number is zero or below; the value that is no number is neither. -/
def isAtMostZero : Binary64 → Bool
  | .nan => false
  | .infinite s => s
  | .finite s m _ => s || m == 0

/-- The number is a zero of either sign. -/
def isZero : Binary64 → Bool
  | .finite _ m _ => m == 0
  | _ => false

/-- The first number is below the second; the value that is no number is neither below nor above. -/
def lt : Binary64 → Binary64 → Bool
  | .nan, _ => false
  | _, .nan => false
  | .infinite s, .infinite t => s && !t
  | .infinite s, .finite _ _ _ => s
  | .finite _ _ _, .infinite t => !t
  | .finite s m e, .finite t n f =>
    let base := min e f
    scaledTo base s m e < scaledTo base t n f

/-- The integer equal to the number, if there is one. -/
def toInt? : Binary64 → Option Int
  | .finite s m e =>
    let signed (n : Nat) : Int := if s then -(n : Int) else n
    if 0 ≤ e then some (signed (m * Nat.pow 2 e.toNat))
    else if m % Nat.pow 2 (-e).toNat = 0 then some (signed (m / Nat.pow 2 (-e).toNat))
    else none
  | _ => none

end Binary64

end ReleaseFetch
