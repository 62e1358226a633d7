/-
**Integers that are too large.**

An integer becomes the double-precision number nearest to it.  The largest of these numbers is
`2 ^ 1024 - 2 ^ 971`.  From halfway between it and `2 ^ 1024` on, the significand is rounded up to a
power of two, and the exponent goes out of range.

Main results:

* `ReleaseFetch.Binary64.roundHalfEven_eq_iff` — the quotients that are rounded up to an even
  number;
* `ReleaseFetch.Binary64.ofInt_eq_infinite_iff` — the integers that become an infinity.
-/

import Mathlib.Tactic.Ring
import ReleaseFetch.Number.Binary64

set_option autoImplicit false

namespace ReleaseFetch.Binary64

/-- A significand is packed to an infinity where the exponent is out of range, or where it is the
greatest one and the significand was rounded up to a power of two. -/
theorem pack_eq_infinite_iff {negative b : Bool} {s : Nat} {e : Int} :
    pack negative s e = .infinite b ↔
      negative = b ∧ (greatestExponent < e ∨ e = greatestExponent ∧ s = 2 ^ 53) := by
  have hpow : Nat.pow 2 53 = 2 ^ 53 := rfl
  unfold pack
  rw [hpow]
  by_cases hs : s = 2 ^ 53
  · rw [if_pos hs]
    split
    · next h =>
      have hexponent : greatestExponent < e ∨ e = greatestExponent := by omega
      simp [hs, hexponent]
    · next h =>
      have hexponent : ¬ (greatestExponent < e ∨ e = greatestExponent) := by omega
      simp [hs, hexponent]
  · rw [if_neg hs]
    split
    · next h =>
      have hexponent : greatestExponent < e := h
      simp [hexponent]
    · next h =>
      have hexponent : ¬ (greatestExponent < e ∨ e = greatestExponent ∧ s = 2 ^ 53) := by
        rintro (hlt | ⟨-, hs'⟩)
        · exact h hlt
        · exact hs hs'
      simp only [reduceCtorEq, hexponent, and_false]

/-- A quotient below an even number is rounded up to it from the half before it on: what is there to
round down to is odd. -/
theorem roundHalfEven_eq_iff {n half k : Nat} (hhalf : 0 < half) (hk : 0 < k) (heven : k % 2 = 0)
    (hn : n < k * (2 * half)) :
    roundHalfEven n (2 * half) = k ↔ (2 * k - 1) * half ≤ n := by
  obtain ⟨j, rfl⟩ : ∃ j, k = j + 1 := ⟨k - 1, by omega⟩
  have hq : n / (2 * half) < j + 1 := Nat.div_lt_of_lt_mul (by rwa [Nat.mul_comm] at hn)
  have hr := Nat.mod_lt n (show 0 < 2 * half by omega)
  have hsum := Nat.div_add_mod n (2 * half)
  have hbound : (2 * (j + 1) - 1) * half = 2 * half * j + half := by
    rw [show 2 * (j + 1) - 1 = 2 * j + 1 by omega]
    ring
  rw [hbound]
  unfold roundHalfEven
  simp only
  rcases Nat.lt_or_ge (n / (2 * half)) j with hlt | hge
  · -- more than one below the number, so rounding up by one does not come to it
    have hbelow : 2 * half * (n / (2 * half)) + 2 * half ≤ 2 * half * j := by
      calc 2 * half * (n / (2 * half)) + 2 * half = 2 * half * (n / (2 * half) + 1) := by ring
        _ ≤ 2 * half * j := Nat.mul_le_mul_left _ hlt
    split
    · omega
    · split <;> omega
  · obtain hqj : n / (2 * half) = j := by omega
    rw [hqj] at hsum ⊢
    split
    · omega
    · split <;> omega

/-- The power of two below an integer is that of its logarithm. -/
theorem magnitude_one {n : Nat} (hn : n ≠ 0) : magnitude n 1 = n.log2 := by
  have hreaches : reaches n 1 n.log2 = true := by
    simp [reaches, Nat.log2_self_le hn]
  have hone : Nat.log2 1 = 0 := rfl
  simp only [magnitude, hone, Nat.cast_zero, sub_zero, hreaches, if_true]

/-- **The integers that are too large** to become a number: those from the midpoint between the
largest number and the next power of two on. -/
theorem ofInt_eq_infinite_iff {n : Int} {negative : Bool} :
    ofInt n = .infinite negative ↔
      decide (n < 0) = negative ∧ (2 ^ 54 - 1) * 2 ^ 970 ≤ n.natAbs := by
  -- the power is a variable from here on, so that nothing tries to compute it
  obtain ⟨half, hhalf, hpositive, hpow⟩ :
      ∃ half, half = 2 ^ 970 ∧ 0 < half ∧ ∀ k, 2 ^ (k + 970) = 2 ^ k * half :=
    ⟨_, rfl, Nat.two_pow_pos _, fun k => pow_add 2 k 970⟩
  rw [← hhalf]
  unfold ofInt ofRatio
  generalize n.natAbs = m
  by_cases hm : m = 0
  · rw [if_pos hm]
    exact ⟨fun h => (by cases h), fun h => (by omega)⟩
  rw [if_neg hm, magnitude_one hm]
  simp only [pack_eq_infinite_iff]
  refine and_congr_right fun _ => ?_
  have hgreatest : greatestExponent = 971 := rfl
  have hleast : leastExponent = -1074 := rfl
  generalize he : max ((m.log2 : Int) - 52) leastExponent = e
  have hmono {a b : Nat} (h : a ≤ b) : 2 ^ a ≤ 2 ^ b := Nat.pow_le_pow_right (by decide) h
  have hlower := Nat.log2_self_le hm
  have hupper := Nat.lt_log2_self (n := m)
  rcases Nat.lt_trichotomy m.log2 1023 with hlt | heq | hgt
  · have hle := hmono (show m.log2 + 1 ≤ 53 + 970 by omega)
    rw [hpow] at hle
    omega
  · -- the greatest exponent: rounding decides
    obtain rfl : e = 971 := by omega
    have hmodulus : 1 * Nat.pow 2 (971 : Int).toNat = 2 * half := by
      rw [Nat.one_mul, show (971 : Int).toNat = 1 + 970 from rfl]
      exact hpow 1
    have hbelow : m < 2 ^ 53 * (2 * half) := by
      rw [show m.log2 + 1 = 54 + 970 by omega, hpow] at hupper
      omega
    have hround := roundHalfEven_eq_iff hpositive (by decide) (by decide) hbelow
    rw [if_pos (by decide), hmodulus, hround]
    omega
  · have hle := hmono (show 54 + 970 ≤ m.log2 by omega)
    rw [hpow] at hle
    omega

end ReleaseFetch.Binary64
