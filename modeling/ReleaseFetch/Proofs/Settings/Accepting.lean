/-
**The values that a setting accepts.**

A configuration file holds values of any kind, and a variable holds any text.  Each value is checked
by the rule of its setting, and the rules refuse what cannot be used: what they accept is a text
that is not empty, a path, a count that is not negative, or a number of seconds that is not zero or
below.

Main definitions:

* `ReleaseFetch.Rule.Fits` — the settings that a rule accepts;
* `ReleaseFetch.Rule.secondsOf?` — the number that a value is read as.

Main results:

* `ReleaseFetch.Rule.checkSeconds_eq_ok_iff` — the times that are accepted;
* `ReleaseFetch.Rule.fits_of_check` — a rule accepts what fits.
-/

import ReleaseFetch.Settings.Rule

set_option autoImplicit false

namespace ReleaseFetch

namespace Rule

/-- **The settings that a rule accepts.** -/
inductive Fits : Rule → Setting → Prop
  | text {s : String} (h : s ≠ "") : Fits .text (.text s)
  | path {mayBeUnset : Bool} (p : Path) : Fits (.path mayBeUnset) (.path p)
  | noPath : Fits (.path true) .unset
  | count (n : Nat) : Fits .count (.count n)
  | seconds {x : Binary64} (h : x.isAtMostZero = false) : Fits .seconds (.seconds x)
  | noSeconds : Fits .seconds .unset

theorem fits_text {x : Setting} (h : Fits .text x) : ∃ s, x = .text s ∧ s ≠ "" := by
  cases h with | text hs => exact ⟨_, rfl, hs⟩

theorem fits_seconds {x : Setting} (h : Fits .seconds x) :
    x = .unset ∨ ∃ y, x = .seconds y ∧ y.isAtMostZero = false := by
  cases h with
  | seconds hy => exact .inr ⟨_, rfl, hy⟩
  | noSeconds => exact .inl rfl

/-- The number that a value is read as, where it is one. -/
def secondsOf? : Yaml.Value → Option Binary64
  | .integer n => (realOfInt n).toOption
  | .real x => some x
  | .text s => Numeral.real? s
  | .bytes bs => (plainText? bs).bind Numeral.real?
  | _ => none

variable {home? : String → Option String} {name : String} {v : Yaml.Value} {x : Setting}

theorem refuseValue_ne_ok {α : Type} {text : String} {a : α} : refuseValue v text ≠ .ok a := by
  unfold refuseValue
  split <;> exact nofun

theorem fits_of_expand {p : Path} (mayBeUnset : Bool) (h : expand home? v p = .ok x) :
    Fits (.path mayBeUnset) x := by
  unfold expand at h
  split at h
  · cases h
  · split at h
    · cases h
    · split at h
      · obtain rfl := Except.ok.inj h
        exact .path _
      · cases h

theorem fits_of_checkPath {mayBeUnset : Bool} (h : checkPath home? mayBeUnset name v = .ok x) :
    Fits (.path mayBeUnset) x := by
  unfold checkPath at h
  simp only at h
  split at h
  · exact fits_of_expand _ h
  · split at h
    · split at h
      · next hunset =>
        obtain rfl := Except.ok.inj h
        exact hunset ▸ .noPath
      · cases h
    · cases h

theorem fits_of_natural {n : Int} (h : natural name n = .ok x) : Fits .count x := by
  cases n with
  | ofNat n =>
      obtain rfl := Except.ok.inj h
      exact .count n
  | negSucc n => cases h

theorem fits_of_checkCount (h : checkCount name v = .ok x) : Fits .count x := by
  unfold checkCount at h
  simp only at h
  split at h
  · exact fits_of_natural h
  · split at h
    · exact fits_of_natural h
    · exact absurd h refuseValue_ne_ok
  · exact absurd h refuseValue_ne_ok

theorem fits_of_checkText (h : checkText name v = .ok x) : Fits .text x := by
  unfold checkText at h
  simp only at h
  split at h
  · split at h
    · exact absurd h refuseValue_ne_ok
    · next hempty =>
      obtain rfl := Except.ok.inj h
      exact .text (by simpa using hempty)
  · next gs =>
    split at h
    · exact absurd h refuseValue_ne_ok
    · next hempty =>
      obtain rfl := Except.ok.inj h
      refine .text fun hnil => hempty ?_
      -- every glyph is held, if only by a mark
      have hchars : Text.heldChars gs = [] := by simpa [held] using congrArg String.toList hnil
      simpa [Text.heldChars] using hchars
  · exact absurd h refuseValue_ne_ok

theorem positive_eq_ok_iff {y : Binary64} :
    positive name y = .ok x ↔ y.isAtMostZero = false ∧ x = .seconds y := by
  unfold positive
  cases y.isAtMostZero <;> simp [refuse, eq_comm]

/-- **A time that is accepted** is none, or it is the number that the value is read as, and that is
not zero or below. -/
theorem checkSeconds_eq_ok_iff : checkSeconds name v = .ok x ↔
    v = .null ∧ x = .unset ∨
      ∃ y, secondsOf? v = some y ∧ y.isAtMostZero = false ∧ x = .seconds y := by
  cases v with
  | null =>
      constructor
      · intro h
        exact .inl ⟨rfl, (Except.ok.inj h).symm⟩
      · rintro (⟨-, rfl⟩ | ⟨y, hy, -⟩)
        · rfl
        · cases hy
  | integer n =>
      simp only [checkSeconds, secondsOf?, reduceCtorEq, false_and, false_or]
      cases realOfInt n with
      | ok y => simp only [positive_eq_ok_iff, Except.toOption, Option.some.injEq, exists_eq_left']
      | error f => simp [Except.toOption]
  | real y =>
      simp only [checkSeconds, secondsOf?, reduceCtorEq, false_and, false_or, positive_eq_ok_iff,
        Option.some.injEq, exists_eq_left']
  | text s =>
      simp only [checkSeconds, secondsOf?, reduceCtorEq, false_and, false_or, Option.bind_some]
      cases Numeral.real? s with
      | some y => simp only [positive_eq_ok_iff, Option.some.injEq, exists_eq_left']
      | none => exact iff_of_false refuseValue_ne_ok nofun
  | bytes bs =>
      simp only [checkSeconds, secondsOf?, reduceCtorEq, false_and, false_or]
      cases (plainText? bs).bind Numeral.real? with
      | some y => simp only [positive_eq_ok_iff, Option.some.injEq, exists_eq_left']
      | none => exact iff_of_false refuseValue_ne_ok nofun
  | _ =>
      simp only [checkSeconds, secondsOf?, reduceCtorEq, false_and, false_or, exists_const]
      exact iff_of_false refuseValue_ne_ok not_false

/-- **A rule accepts what fits.** -/
theorem fits_of_check {rule : Rule} (h : rule.check home? name v = .ok x) : rule.Fits x := by
  cases rule with
  | text => exact fits_of_checkText h
  | path mayBeUnset => exact fits_of_checkPath h
  | count => exact fits_of_checkCount h
  | seconds =>
      have hseconds : checkSeconds name v = .ok x := h
      rcases checkSeconds_eq_ok_iff.1 hseconds with ⟨-, rfl⟩ | ⟨y, -, hpositive, rfl⟩
      · exact .noSeconds
      · exact .seconds hpositive

end Rule

end ReleaseFetch
