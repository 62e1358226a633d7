/-
**Lower case twice.**

An ASCII character is put in lower case by itself, whatever stands around it.  The runs of capitals
lead past each other, so no small letter is a capital, and none is a blank: a text that was put in
lower case stays as it is when it is put in lower case again.

Main definitions:

* `ReleaseFetch.Text.IsAscii` — an ASCII character;
* `ReleaseFetch.Text.Settled` — a character that stays as it is in lower case, whatever stands
  around it.

Main results:

* `ReleaseFetch.Text.settled_smallLetter` — small letters stay as they are;
* `ReleaseFetch.Text.lowerFrom_ascii` — the lower case of an ASCII text;
* `ReleaseFetch.Text.lowerFrom_lowerFrom` — lower case of lower case;
* `ReleaseFetch.Text.toLower_mem_lowerFrom` — no ASCII character is lost;
* `ReleaseFetch.Text.notBlank_smallLetters` — lower case makes no blanks.
-/

import ReleaseFetch.Text.Blank
import ReleaseFetch.Text.Lowercase

set_option autoImplicit false

namespace ReleaseFetch.Text

/-! ### One character -/

/-- An ASCII character. -/
def IsAscii (c : Char) : Prop := c.toNat < 0x80

/-- The sign for a unit of temperature, the only character besides ASCII letters whose small letter
is one. -/
def kelvin : Char := '\u212a'

/-- A character that stays as it is in lower case, whatever stands around it. -/
def Settled (c : Char) : Prop := smallLetter c = c ∧ c ≠ '\u03a3' ∧ c ≠ '\u0130'

/-- What holds of the ASCII characters one by one holds of all of them. -/
theorem IsAscii.all {P : Char → Prop} (h : ∀ n < 0x80, P (Char.ofNat n)) {c : Char}
    (hc : IsAscii c) : P c := by
  have hP := h c.toNat hc
  rwa [Char.ofNat_toNat] at hP

theorem IsAscii.toLower {c : Char} (hc : IsAscii c) : IsAscii c.toLower :=
  all (P := fun c => c.toLower.toNat < 0x80) (by decide) hc

theorem IsAscii.toLower_toLower {c : Char} (hc : IsAscii c) : c.toLower.toLower = c.toLower :=
  all (P := fun c => c.toLower.toLower = c.toLower) (by decide) hc

theorem IsAscii.smallLetter_eq {c : Char} (hc : IsAscii c) : smallLetter c = c.toLower := if_pos hc

/-! ### Runs of capitals -/

/-- Runs of capitals outside ASCII lead to small letters outside ASCII, none of which is a capital
with a small letter in ASCII; that capital is a run of its own. -/
theorem caseRuns_shift : ∀ r ∈ caseRuns, 0x80 ≤ r.high →
    (r.low = 0x212a ∧ r.high = 0x212a) ∨
    (0x80 ≤ r.low + r.shift ∧ (r.high + r.shift < 0x212a ∨ 0x212a < r.low + r.shift)) := by
  decide +kernel

/-- Every small letter is a character, and none is the dotted capital I, which is in no run. -/
theorem caseRuns_valid : ∀ r ∈ caseRuns, 0 ≤ r.low + r.shift ∧
    (r.high + r.shift < 0xd800 ∨ 0xdfff < r.low + r.shift ∧ r.high + r.shift < 0x110000) ∧
    (r.high + r.shift < 0x130 ∨ 0x130 < r.low + r.shift) := by
  decide +kernel

/-- No small letter is a blank. -/
theorem caseRuns_blank : ∀ r ∈ caseRuns, ∀ t ∈ blankRanges,
    r.high + r.shift < t.1 ∨ t.2 < r.low + r.shift := by
  decide +kernel

/-- Code points from `low` to `high` are not in a run: they lie apart from it, or every second one
of them alternates with those of the run. -/
def CaseRun.passes (t : CaseRun) (low high : Nat) (alternating : Bool) : Bool :=
  high.blt t.low || t.high.blt low || (t.step.beq 2 && alternating && ((low + t.low) % 2).beq 1)

/-- No small letter is a capital. -/
theorem caseRuns_apart : ∀ r ∈ caseRuns, caseRuns.all (fun t =>
    t.passes (r.low + r.shift).toNat (r.high + r.shift).toNat (r.low.beq r.high || r.step.beq 2)) := by
  decide +kernel

theorem CaseRun.bounds_of_holds {r : CaseRun} {c : Char} (h : r.holds c = true) :
    r.low ≤ c.toNat ∧ c.toNat ≤ r.high := by
  simp only [CaseRun.holds, Bool.and_eq_true, decide_eq_true_eq] at h
  exact h.1

/-- The character behind a capital by the shift of its run has that number. -/
theorem CaseRun.toNat_shift {r : CaseRun} (hr : r ∈ caseRuns) {c : Char} (h : r.holds c = true) :
    ((Char.ofNat (c.toNat + r.shift).toNat).toNat : Int) = c.toNat + r.shift := by
  obtain ⟨hlow, hhigh⟩ := bounds_of_holds h
  obtain ⟨hpositive, hvalid, -⟩ := caseRuns_valid r hr
  have hchar : (c.toNat + r.shift).toNat.isValidChar := by
    unfold Nat.isValidChar
    omega
  have hnat : (Char.ofNat (c.toNat + r.shift).toNat).toNat = (c.toNat + r.shift).toNat := by
    rw [Char.ofNat, dif_pos hchar]
    rfl
  omega

/-- The character behind a capital by the shift of its run is in no run. -/
theorem CaseRun.notHeld_shift {r : CaseRun} (hr : r ∈ caseRuns) {c d : Char} (h : r.holds c = true)
    (hd : (d.toNat : Int) = c.toNat + r.shift) : ∀ t ∈ caseRuns, t.holds d = false := by
  intro t ht
  have hpasses := List.all_eq_true.1 (caseRuns_apart r hr) t ht
  obtain ⟨hpositive, -, -⟩ := caseRuns_valid r hr
  obtain ⟨hlow, hhigh⟩ := bounds_of_holds h
  refine Bool.eq_false_iff.2 fun hheld => ?_
  obtain ⟨hlow', hhigh'⟩ := bounds_of_holds hheld
  simp only [CaseRun.holds, Bool.and_eq_true, beq_iff_eq] at h hheld
  simp only [passes, Nat.blt_eq, Nat.beq_eq, Bool.or_eq_true, Bool.and_eq_true] at hpasses
  rcases hpasses with (hbefore | hbehind) | ⟨⟨htwo, halternating⟩, hodd⟩
  · omega
  · omega
  · -- both are on one side of every second code point, and the run is on the other one
    have heven := hheld.2
    rw [htwo] at heven
    rcases halternating with hsingle | hstep
    · omega
    · have hcapital := h.2
      rw [hstep] at hcapital
      omega

/-- A character that is no capital is its own small letter. -/
theorem smallLetter_of_notHeld {c : Char} (h : ∀ t ∈ caseRuns, t.holds c = false) :
    smallLetter c = c := by
  by_cases hc : IsAscii c
  · have hcapital := h ⟨0x41, 0x5a, 1, 32⟩ List.mem_cons_self
    rw [hc.smallLetter_eq]
    exact IsAscii.all (P := fun c => CaseRun.holds ⟨0x41, 0x5a, 1, 32⟩ c = false → c.toLower = c)
      (by decide) hc hcapital
  · have hnone : caseRuns.find? (·.holds c) = none :=
      List.find?_eq_none.2 fun t ht => Bool.eq_false_iff.1 (h t ht)
    unfold smallLetter
    unfold IsAscii at hc
    rw [if_neg hc, hnone]

/-- A character outside ASCII is in no run, or its small letter is given by the first run that it is
in. -/
theorem smallLetter_cases {c : Char} (hc : ¬IsAscii c) :
    (∀ t ∈ caseRuns, t.holds c = false) ∨
      ∃ r ∈ caseRuns, r.holds c = true ∧ ((smallLetter c).toNat : Int) = c.toNat + r.shift := by
  unfold IsAscii at hc
  cases hfind : caseRuns.find? (·.holds c) with
  | none => exact .inl fun t ht => Bool.eq_false_iff.2 (List.find?_eq_none.1 hfind t ht)
  | some r =>
      have hmem := List.mem_of_find?_eq_some hfind
      have hholds : r.holds c = true := by simpa using List.find?_some hfind
      refine .inr ⟨r, hmem, hholds, ?_⟩
      unfold smallLetter
      rw [if_neg hc, hfind]
      exact CaseRun.toNat_shift hmem hholds

/-- The small letter of a character outside ASCII is outside ASCII, one character excepted. -/
theorem not_isAscii_smallLetter {c : Char} (hc : ¬IsAscii c) (hne : c ≠ kelvin) :
    ¬IsAscii (smallLetter c) := by
  rcases smallLetter_cases hc with hnone | ⟨r, hr, hholds, hshift⟩
  · rwa [smallLetter_of_notHeld hnone]
  · unfold IsAscii at hc ⊢
    obtain ⟨hlow, hhigh⟩ := CaseRun.bounds_of_holds hholds
    rcases caseRuns_shift r hr (by omega) with ⟨hl, hh⟩ | hascii
    · refine absurd ?_ hne
      rw [← Char.ofNat_toNat c, show c.toNat = 0x212a by omega]
      rfl
    · omega

/-- **Small letters stay as they are.** -/
theorem settled_smallLetter {c : Char} (hdotted : c ≠ '\u0130') : Settled (smallLetter c) := by
  by_cases hc : IsAscii c
  · rw [hc.smallLetter_eq]
    refine ⟨hc.toLower.smallLetter_eq.trans hc.toLower_toLower, ?_⟩
    exact IsAscii.all (P := fun c => c.toLower ≠ '\u03a3' ∧ c.toLower ≠ '\u0130') (by decide) hc
  · have hsigma {d : Char} (hd : ∀ t ∈ caseRuns, t.holds d = false) : d ≠ '\u03a3' := by
      rintro rfl
      exact absurd (List.any_eq_false.2 fun t ht => Bool.eq_false_iff.1 (hd t ht))
        (by decide +kernel : caseRuns.any (·.holds '\u03a3') ≠ false)
    rcases smallLetter_cases hc with hnone | ⟨r, hr, hholds, hshift⟩
    · rw [smallLetter_of_notHeld hnone]
      exact ⟨smallLetter_of_notHeld hnone, hsigma hnone, hdotted⟩
    · have hnone := CaseRun.notHeld_shift hr hholds hshift
      refine ⟨smallLetter_of_notHeld hnone, hsigma hnone, fun heq => ?_⟩
      have hnumber : (smallLetter c).toNat = 0x130 := by rw [heq]; rfl
      obtain ⟨hlow, hhigh⟩ := CaseRun.bounds_of_holds hholds
      obtain ⟨-, -, hapart⟩ := caseRuns_valid r hr
      omega

/-- The small letter of a character that is not blank is not blank. -/
theorem notBlank_smallLetter {c : Char} (hblank : isBlank c = false) :
    isBlank (smallLetter c) = false := by
  by_cases hc : IsAscii c
  · rw [hc.smallLetter_eq]
    exact IsAscii.all (P := fun c => isBlank c = false → isBlank c.toLower = false) (by decide) hc
      hblank
  · rcases smallLetter_cases hc with hnone | ⟨r, hr, hholds, hshift⟩
    · rwa [smallLetter_of_notHeld hnone]
    · refine Bool.eq_false_iff.2 fun hheld => ?_
      obtain ⟨t, ht, hinside⟩ := (Ranges.holds_iff blankRanges _).1 hheld
      obtain ⟨hlow, hhigh⟩ := CaseRun.bounds_of_holds hholds
      have hapart := caseRuns_blank r hr t ht
      omega

/-! ### Texts -/

variable {b b' cs : List Char}

/-- Small letters of a character: one, two for the dotted capital, or a sigma. -/
def smallLetters (before : List Char) (c : Char) (rest : List Char) : List Char :=
  if c = '\u03a3' then [if meetsCased before && !meetsCased rest then '\u03c2' else '\u03c3']
  else if c = '\u0130' then ['i', '\u0307']
  else [smallLetter c]

theorem lowerFrom_cons (before : List Char) (c : Char) (rest : List Char) :
    lowerFrom before (c :: rest) = smallLetters before c rest ++ lowerFrom (c :: before) rest := rfl

/-- What holds of the two small sigmas, of the two parts of the dotted letter and of every small
letter holds of all small letters of a character. -/
theorem forall_mem_smallLetters {P : Char → Prop} {c : Char}
    (hconstants : P '\u03c2' ∧ P '\u03c3' ∧ P 'i' ∧ P '\u0307')
    (hsmall : c ≠ '\u03a3' → c ≠ '\u0130' → P (smallLetter c)) (before rest : List Char) :
    ∀ x ∈ smallLetters before c rest, P x := by
  obtain ⟨hlast, hinner, hi, hdot⟩ := hconstants
  unfold smallLetters
  split
  · rw [List.forall_mem_singleton]
    split
    · exact hlast
    · exact hinner
  · next hsigma =>
    split
    · exact List.forall_mem_cons.2 ⟨hi, List.forall_mem_singleton.2 hdot⟩
    · next hdotted => exact List.forall_mem_singleton.2 (hsmall hsigma hdotted)

theorem smallLetters_ne_nil (before : List Char) (c : Char) (rest : List Char) :
    smallLetters before c rest ≠ [] := by
  unfold smallLetters
  split
  · exact List.cons_ne_nil _ _
  · split
    · exact List.cons_ne_nil _ _
    · exact List.cons_ne_nil _ _

theorem smallLetters_settled (before : List Char) (c : Char) (rest : List Char) :
    ∀ x ∈ smallLetters before c rest, Settled x := by
  refine forall_mem_smallLetters ?_ (fun _ hdotted => settled_smallLetter hdotted) before rest
  unfold Settled
  decide +kernel

/-- **Lower case makes no blanks.** -/
theorem notBlank_smallLetters {c : Char} (hblank : isBlank c = false) (before rest : List Char) :
    ∀ x ∈ smallLetters before c rest, isBlank x = false :=
  forall_mem_smallLetters (by decide) (fun _ _ => notBlank_smallLetter hblank) before rest

theorem smallLetters_of_settled {c : Char} (hc : Settled c) (before rest : List Char) :
    smallLetters before c rest = [c] := by
  obtain ⟨hsmall, hsigma, hdotted⟩ := hc
  unfold smallLetters
  rw [if_neg hsigma, if_neg hdotted, hsmall]

theorem smallLetters_ascii {c : Char} (hc : IsAscii c) (before rest : List Char) :
    smallLetters before c rest = [c.toLower] := by
  obtain ⟨hsigma, hdotted⟩ :=
    IsAscii.all (P := fun c => c ≠ '\u03a3' ∧ c ≠ '\u0130') (by decide) hc
  unfold smallLetters
  rw [if_neg hsigma, if_neg hdotted, hc.smallLetter_eq]

theorem settled_lowerFrom (b cs : List Char) : ∀ x ∈ lowerFrom b cs, Settled x := by
  induction cs generalizing b with
  | nil => simp [lowerFrom]
  | cons c rest ih =>
      intro x hx
      rw [lowerFrom_cons, List.mem_append] at hx
      exact hx.elim (smallLetters_settled b c rest x) (ih (c :: b) x)

/-- **The lower case of an ASCII text is that of its characters.** -/
theorem lowerFrom_ascii (h : ∀ c ∈ cs, IsAscii c) : lowerFrom b cs = cs.map Char.toLower := by
  induction cs generalizing b with
  | nil => rfl
  | cons c rest ih =>
      obtain ⟨hc, hrest⟩ := List.forall_mem_cons.1 h
      rw [lowerFrom_cons, smallLetters_ascii hc, ih hrest]
      rfl

/-- **No ASCII character is lost in lower case.** -/
theorem toLower_mem_lowerFrom {c : Char} (hc : IsAscii c) (hmem : c ∈ cs) :
    c.toLower ∈ lowerFrom b cs := by
  induction cs generalizing b with
  | nil => cases hmem
  | cons d rest ih =>
      rw [lowerFrom_cons, List.mem_append]
      rcases List.mem_cons.1 hmem with rfl | hrest
      · left
        simp [smallLetters_ascii hc]
      · exact .inr (ih hrest)

theorem lowerFrom_of_settled (h : ∀ c ∈ cs, Settled c) : lowerFrom b cs = cs := by
  induction cs generalizing b with
  | nil => rfl
  | cons c rest ih =>
      obtain ⟨hc, hrest⟩ := List.forall_mem_cons.1 h
      rw [lowerFrom_cons, smallLetters_of_settled hc, ih hrest]
      rfl

/-- **Lower case of lower case changes nothing.** -/
theorem lowerFrom_lowerFrom : lowerFrom b (lowerFrom b' cs) = lowerFrom b' cs :=
  lowerFrom_of_settled (settled_lowerFrom b' cs)

/-- The last character of a text gives the end of its lower case. -/
theorem lowerFrom_concat (b cs : List Char) (c : Char) :
    ∃ front, lowerFrom b (cs ++ [c]) = front ++ smallLetters (cs.reverse ++ b) c [] := by
  induction cs generalizing b with
  | nil => exact ⟨[], by rw [List.nil_append, lowerFrom_cons]; exact List.append_nil _⟩
  | cons d rest ih =>
      obtain ⟨front, hfront⟩ := ih (d :: b)
      refine ⟨smallLetters b d (rest ++ [c]) ++ front, ?_⟩
      rw [List.cons_append, lowerFrom_cons, hfront, List.append_assoc, List.reverse_cons,
        List.append_assoc]
      rfl

end ReleaseFetch.Text
