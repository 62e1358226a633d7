/-
**Reading a URL of a scheme and an authority.**

A text that begins with a scheme, and whose other characters are printable, is cut as it stands: at
the colon of the scheme, and where the authority ends.

Main definitions:

* `ReleaseFetch.Url.IsScheme` — what is read as a scheme;
* `ReleaseFetch.Url.IsAuthority` — characters that are read as an authority.

Main results:

* `ReleaseFetch.Url.isScheme_of_ofText` — the scheme of a URL is one;
* `ReleaseFetch.Url.ofText_authority` — a URL of a scheme, an authority and no more than a slash is
  read back;
* `ReleaseFetch.Url.ofText_front` — its scheme and its authority are, whatever follows them.
-/

import ReleaseFetch.Proofs.Text.Cutting
import ReleaseFetch.Proofs.Text.Lowercase
import ReleaseFetch.Url.Authority

set_option autoImplicit false

namespace ReleaseFetch

open Text

namespace Url

/-! ### Schemes -/

/-- The characters are read as a scheme. -/
def IsScheme (cs : List Char) : Prop :=
  (cs.head?.map isLetter).getD false = true ∧ cs.all isSchemeChar = true

instance (cs : List Char) : Decidable (IsScheme cs) := inferInstanceAs (Decidable (_ ∧ _))

theorem isAscii_of_isSchemeChar {c : Char} (h : isSchemeChar c = true) : IsAscii c := by
  simp only [isSchemeChar, isLetter, Bool.or_eq_true, Bool.and_eq_true, decide_eq_true_eq,
    beq_iff_eq, Char.le_def, UInt32.le_iff_toNat_le] at h
  unfold IsAscii Char.toNat
  rcases h with ((((⟨_, h⟩ | ⟨_, h⟩) | ⟨_, h⟩) | rfl) | rfl) | rfl
  · exact Nat.lt_of_le_of_lt h (by decide)
  · exact Nat.lt_of_le_of_lt h (by decide)
  · exact Nat.lt_of_le_of_lt h (by decide)
  · decide
  · decide
  · decide

/-- A scheme in lower case is a scheme. -/
theorem IsScheme.toLower {cs : List Char} (h : IsScheme cs) : IsScheme (cs.map Char.toLower) := by
  obtain ⟨hhead, hall⟩ := h
  have hchar (c : Char) (hc : c ∈ cs) : isSchemeChar c = true := List.all_eq_true.1 hall c hc
  have hlower (c : Char) (hc : isSchemeChar c = true) :
      isSchemeChar c.toLower = true ∧ (isLetter c = true → isLetter c.toLower = true) :=
    IsAscii.all (P := fun c => isSchemeChar c = true →
      isSchemeChar c.toLower = true ∧ (isLetter c = true → isLetter c.toLower = true)) (by decide)
      (isAscii_of_isSchemeChar hc) hc
  cases cs with
  | nil => cases hhead
  | cons c rest =>
      refine ⟨(hlower c (hchar c List.mem_cons_self)).2 hhead, List.all_eq_true.2 fun d hd => ?_⟩
      obtain ⟨e, he, rfl⟩ := List.mem_map.1 hd
      exact (hlower e (hchar e he)).1

theorem cutScheme_scheme (cs : List Char) : (cutScheme cs).1 = [] ∨ IsScheme (cutScheme cs).1 := by
  unfold cutScheme
  split
  · split
    · next hscheme =>
      rw [Bool.and_eq_true] at hscheme
      exact .inr (IsScheme.toLower hscheme)
    · exact .inl rfl
  · exact .inl rfl

/-- **The scheme of a URL is one**, if it names any. -/
theorem isScheme_of_ofText {s : String} {u : Url} (h : ofText s = .ok u) :
    u.scheme = [] ∨ IsScheme u.scheme := by
  have hscheme : u.scheme = (cutScheme (cleaned s.toList)).1 := by
    unfold ofText ofTextWith at h
    simp only at h
    split at h
    · cases h
    · split at h
      · cases h
      · obtain rfl := Except.ok.inj h
        simp only
        split
        · next hempty => exact (List.isEmpty_iff.1 hempty).symm
        · rfl
  rw [hscheme]
  exact cutScheme_scheme _

/-- A scheme is cut off at its colon. -/
theorem IsScheme.cut {scheme : List Char} (h : IsScheme scheme) (rest : List Char) :
    cutScheme (scheme ++ ':' :: rest) = (scheme.map Char.toLower, rest) := by
  have hcolon : ':' ∉ scheme := fun hmem => by
    have hchar := List.all_eq_true.1 h.2 _ hmem
    revert hchar
    decide
  have hcut : cutFirst? ':' (scheme ++ ':' :: rest) = some (scheme, rest) :=
    cutFirst?_eq_some_iff.2 ⟨rfl, hcolon⟩
  simp only [cutScheme, hcut, h.1, h.2, Bool.and_self, if_true]

theorem IsScheme.isEmpty_lower {scheme : List Char} (h : IsScheme scheme) :
    (scheme.map Char.toLower).isEmpty = false := by
  cases scheme with
  | nil => cases h.1
  | cons c rest => rfl

/-! ### Authorities -/

/-- ASCII characters without a break, none of which ends an authority. -/
def IsAuthority (authority : List Char) : Prop :=
  ∀ c ∈ authority, IsAscii c ∧ isLineOrTab c = false ∧ endsAuthority c = false

/-- No ASCII character becomes a delimiter when it is normalized. -/
theorem spellingFault?_of_isAscii {authority : List Char} (h : ∀ c ∈ authority, IsAscii c) :
    spellingFault? authority = none := by
  have hplain : ∀ n ∈ hiddenDelimiters, 0x80 ≤ n := by decide
  have hany : (authority.any fun c => hiddenDelimiters.contains c.toNat) = false := by
    rw [List.any_eq_false]
    intro c hc hhidden
    have hascii := h c hc
    have hlarge := hplain _ (List.contains_iff_mem.1 hhidden)
    unfold IsAscii at hascii
    omega
  rw [spellingFault?, hany]
  rfl

/-- An authority is cut where a character ends it. -/
theorem cutAuthority_append {authority path : List Char}
    (h : ∀ c ∈ authority, endsAuthority c = false)
    (hpath : ∀ c ∈ path.head?, endsAuthority c = true) :
    cutAuthority ('/' :: '/' :: (authority ++ path)) = (authority, path) := by
  have hpass : ∀ c ∈ authority, (!endsAuthority c) = true := fun c hc => by simp [h c hc]
  rw [cutAuthority, List.takeWhile_append_of_pos hpass, List.dropWhile_append_of_pos hpass]
  cases path with
  | nil => simp
  | cons c rest =>
      have hc := hpath c rfl
      simp [hc]

/-- Behind a scheme only breaks are dropped. -/
theorem IsScheme.cleaned_append {scheme : List Char} (h : IsScheme scheme) (rest : List Char) :
    Url.cleaned (scheme ++ rest) = scheme ++ rest.filter fun c => !isLineOrTab c := by
  have hchar (c : Char) (hc : c ∈ scheme) : isLineOrTab c = false ∧ isControlOrSpace c = false := by
    have hscheme := List.all_eq_true.1 h.2 c hc
    exact IsAscii.all (P := fun c => isSchemeChar c = true →
      isLineOrTab c = false ∧ isControlOrSpace c = false) (by decide)
      (isAscii_of_isSchemeChar hscheme) hscheme
  have hdrop : (scheme ++ rest).dropWhile isControlOrSpace = scheme ++ rest := by
    cases scheme with
    | nil => cases h.1
    | cons c cs =>
        rw [List.cons_append, List.dropWhile_cons_of_neg (by simp [hchar c List.mem_cons_self])]
  have hkept : (scheme.filter fun c => !isLineOrTab c) = scheme :=
    List.filter_eq_self.2 fun c hc => by simp [hchar c hc]
  rw [Url.cleaned, hdrop, List.filter_append, hkept]

/-- Nothing is dropped behind a scheme if there is no break. -/
theorem IsScheme.cleaned {scheme : List Char} (h : IsScheme scheme) {rest : List Char}
    (hrest : ∀ c ∈ rest, isLineOrTab c = false) : cleaned (scheme ++ rest) = scheme ++ rest := by
  rw [h.cleaned_append, List.filter_eq_self.2 fun c hc => by simp [hrest c hc]]

/-- **A URL of a scheme and an authority is read back**, unless its brackets are not those of an
address. -/
theorem ofText_authority {scheme authority path : List Char} (hscheme : IsScheme scheme)
    (h : IsAuthority authority) (hpath : path = [] ∨ path = ['/']) {s : String}
    (hs : s.toList = scheme ++ ':' :: '/' :: '/' :: (authority ++ path)) :
    ofText s = match bracketsFault? authority with
      | some fault => .error (.badValue fault)
      | none => .ok ⟨scheme.map Char.toLower, authority, path, [], [], []⟩ := by
  have hcleaned : Url.cleaned s.toList = s.toList := by
    rw [hs]
    refine hscheme.cleaned fun c hc => ?_
    rw [List.mem_cons, List.mem_cons, List.mem_cons, List.mem_append] at hc
    rcases hc with rfl | rfl | rfl | hc | hc
    · decide
    · decide
    · decide
    · exact (h c hc).2.1
    · rcases hpath with rfl | rfl
      · cases hc
      · obtain rfl := List.mem_singleton.1 hc
        decide
  have hcut : cutAuthority ('/' :: '/' :: (authority ++ path)) = (authority, path) := by
    refine cutAuthority_append (fun c hc => (h c hc).2.2) fun c hc => ?_
    rcases hpath with rfl | rfl
    · cases hc
    · obtain rfl := Option.some.inj hc
      decide
  unfold ofText ofTextWith
  rw [hcleaned, hs, hscheme.cut]
  simp only [hcut, spellingFault?_of_isAscii fun c hc => (h c hc).1, hscheme.isEmpty_lower,
    Bool.false_eq_true, if_false]
  cases bracketsFault? authority with
  | some fault => rfl
  | none =>
      simp only
      -- a path without a question mark, a number sign or a semicolon is kept whole
      rcases hpath with rfl | rfl
      · split <;> rfl
      · split <;> rfl

/-- **The scheme and the authority of a URL are read back, whatever follows them.** -/
theorem ofText_front {scheme authority path : List Char} (hscheme : IsScheme scheme)
    (h : IsAuthority authority) (hbrackets : bracketsFault? authority = none)
    (hpath : ∀ c ∈ path.head?, endsAuthority c = true) {s : String}
    (hs : s.toList = scheme ++ ':' :: '/' :: '/' :: (authority ++ path)) :
    ∃ u, ofText s = .ok u ∧ u.scheme = scheme.map Char.toLower ∧ u.authority = authority := by
  -- breaks are dropped from what follows; it still begins with a mark that ends the authority
  let kept : List Char := path.filter fun c => !isLineOrTab c
  have hauthority : (authority.filter fun c => !isLineOrTab c) = authority :=
    List.filter_eq_self.2 fun c hc => by simp [(h c hc).2.1]
  have hcleaned : Url.cleaned s.toList = scheme ++ ':' :: '/' :: '/' :: (authority ++ kept) := by
    rw [hs, hscheme.cleaned_append]
    simp only [List.filter_cons, List.filter_append, hauthority]
    rfl
  have hkept : ∀ c ∈ kept.head?, endsAuthority c = true := by
    cases path with
    | nil => exact fun c hc => by cases hc
    | cons d rest =>
        have hd := hpath d rfl
        have hbreak : isLineOrTab d = false := by
          cases hline : isLineOrTab d with
          | false => rfl
          | true =>
              simp only [isLineOrTab, Bool.or_eq_true, beq_iff_eq] at hline
              rcases hline with (rfl | rfl) | rfl <;> cases hd
        intro c hc
        have hhead : kept = d :: rest.filter fun c => !isLineOrTab c := by simp [kept, hbreak]
        rw [hhead] at hc
        obtain rfl := Option.some.inj hc
        exact hd
  have hcut := cutAuthority_append (fun c hc => (h c hc).2.2) hkept
  unfold ofText ofTextWith
  rw [hcleaned, hscheme.cut]
  simp only [hcut, spellingFault?_of_isAscii fun c hc => (h c hc).1, hbrackets,
    hscheme.isEmpty_lower, Bool.false_eq_true, if_false]
  exact ⟨_, rfl, rfl, rfl⟩

end Url

end ReleaseFetch
