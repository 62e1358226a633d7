/-
**What a configuration that was loaded holds.**

A configuration file holds values of any kind, and a variable holds any text.  Whatever comes of
them when they are loaded has settings that their rules accept; so it has names that are not empty,
a count that is not negative, and a time that is above zero.  The rule for the last one refuses what
is zero or below, which the value that is no number is not: it is the one value that gets through,
and it does so exactly where the file says so.

Main definitions:

* `ReleaseFetch.Config.Usable` — a configuration that can be used.

Main results:

* `ReleaseFetch.Binary64.isAtMostZero_eq_false_iff` — what is not refused as a time;
* `ReleaseFetch.Settings.Layered.fits` — the settings of a configuration fit their rules;
* `ReleaseFetch.Settings.Layered.timeout_nan_iff` — where a time is no number;
* `ReleaseFetch.Settings.load_usable` — every configuration that is loaded.
-/

import ReleaseFetch.Proofs.Settings.Layers

set_option autoImplicit false

namespace ReleaseFetch

open Session

/-! ### Numbers above zero -/

namespace Binary64

/-- Zero. -/
def zero : Binary64 := .finite false 0 leastExponent

/-- The number is above zero. -/
def IsPositive (x : Binary64) : Prop := zero.lt x = true

theorem scaledTo_zero (base e : Int) : scaledTo base false 0 e = 0 := by
  simp [scaledTo]

theorem scaledTo_pos_iff {base e : Int} {negative : Bool} {m : Nat} :
    0 < scaledTo base negative m e ↔ negative = false ∧ m ≠ 0 := by
  have hpower : 0 < Nat.pow 2 (e - base).toNat := Nat.pow_pos (by decide)
  unfold scaledTo
  cases negative with
  | true =>
      simp only [if_true, reduceCtorEq, false_and, iff_false]
      omega
  | false =>
      simp only [Bool.false_eq_true, if_false, true_and, Int.natCast_pos]
      constructor
      · rintro h rfl
        simp at h
      · intro h
        exact Nat.mul_pos (Nat.pos_of_ne_zero h) hpower

/-- **What is not zero or below is above zero, or no number.** -/
theorem isAtMostZero_eq_false_iff {x : Binary64} :
    x.isAtMostZero = false ↔ x = .nan ∨ x.IsPositive := by
  cases x with
  | nan => simp [isAtMostZero]
  | infinite negative => simp [isAtMostZero, IsPositive, zero, lt]
  | finite negative m e =>
      simp only [isAtMostZero, IsPositive, zero, lt, scaledTo_zero, decide_eq_true_eq,
        scaledTo_pos_iff, reduceCtorEq, false_or, Bool.or_eq_false_iff, beq_eq_false_iff_ne, ne_eq]

end Binary64

/-- The number of seconds is above zero. -/
def Seconds.IsPositive : Seconds → Prop
  | .whole n => 0 < n
  | .real x => x.IsPositive

/-! ### Configurations -/

/-- **A configuration that can be used.**  Its directories are paths by their type; its names are
not empty, its count is not negative, and its time is above zero or no number. -/
structure Config.Usable (c : Config) : Prop where
  toolName : c.toolName ≠ ""
  repo : c.repo ≠ ""
  version : c.version ≠ ""
  apiHost : c.apiHost ≠ ""
  userAgent : c.userAgent ≠ ""
  maxRedirects : 0 ≤ c.maxRedirects
  timeout : ∀ t, c.timeout = some t → t.IsPositive ∨ t = .real .nan

namespace Config

variable {c : Config}

theorem setting?_timeout {x : Binary64} :
    c.setting? .timeout = some (.seconds x) ↔ c.timeout = some (.real x) := by
  simp only [setting?]
  split <;> simp_all

/-- A configuration can be used if every setting of it fits its rule. -/
theorem usable_of_fits (h : ∀ key, ∃ x, c.setting? key = some x ∧ key.rule.Fits x) : c.Usable := by
  have htext (key : Key) {s : String} (hrule : key.rule = .text)
      (hs : c.setting? key = some (.text s)) : s ≠ "" := by
    obtain ⟨x, hx, hfits⟩ := h key
    obtain rfl := Option.some.inj (hs.symm.trans hx)
    rw [hrule] at hfits
    cases hfits with | text hne => exact hne
  refine ⟨htext .toolName rfl rfl, htext .repo rfl rfl, htext .version rfl rfl,
    htext .apiHost rfl rfl, htext .userAgent rfl rfl, ?_, ?_⟩
  · obtain ⟨x, hx, -⟩ := h .maxRedirects
    obtain ⟨n, hn, -⟩ := Option.map_eq_some_iff.1 hx
    rw [Int.mem_toNat?.1 hn]
    exact Int.natCast_nonneg n
  · intro t ht
    obtain ⟨x, hx, hfits⟩ := h .timeout
    cases t with
    | whole n => simp [setting?, ht] at hx
    | real y =>
        obtain rfl := Option.some.inj ((setting?_timeout.2 ht).symm.trans hx)
        cases hfits with
        | seconds hpositive =>
            rcases Binary64.isAtMostZero_eq_false_iff.1 hpositive with rfl | habove
            · exact .inr rfl
            · exact .inl habove

end Config

namespace Settings

variable {s : Site} {c : Config} {written? : Key → Option Yaml.Value}

/-- **The settings of a configuration fit their rules**, those that are written and the defaults.
-/
theorem Layered.fits (h : Layered s written? c) (key : Key) :
    ∃ x, c.setting? key = some x ∧ key.rule.Fits x := by
  obtain ⟨hgiven, hleft⟩ := h key
  cases hwritten : written? key with
  | none =>
      obtain ⟨x, hx, hfits⟩ := Config.fits_standard s key
      exact ⟨x, (hleft hwritten).trans hx, hfits⟩
  | some v =>
      obtain ⟨x, hcheck, hx⟩ := hgiven v hwritten
      exact ⟨x, hx, Rule.fits_of_check hcheck⟩

/-- **A time is no number** where what is written for it is read as none. -/
theorem Layered.timeout_nan_iff (h : Layered s written? c) :
    c.timeout = some (.real .nan) ↔
      ∃ v, written? .timeout = some v ∧ Rule.secondsOf? v = some .nan := by
  obtain ⟨hgiven, hleft⟩ := h .timeout
  rw [← Config.setting?_timeout]
  constructor
  · intro hnan
    cases hwritten : written? .timeout with
    | none =>
        -- the default is no time
        rw [hleft hwritten] at hnan
        cases hnan
    | some v =>
        obtain ⟨x, hcheck, hx⟩ := hgiven v hwritten
        obtain rfl := Option.some.inj (hnan.symm.trans hx)
        have hseconds : Rule.checkSeconds Key.timeout.name v = .ok (.seconds .nan) := hcheck
        rcases Rule.checkSeconds_eq_ok_iff.1 hseconds with ⟨-, hunset⟩ | ⟨y, hread, -, heq⟩
        · cases hunset
        · obtain rfl := Setting.seconds.inj heq
          exact ⟨v, rfl, hread⟩
  · rintro ⟨v, hwritten, hread⟩
    obtain ⟨x, hcheck, hx⟩ := hgiven v hwritten
    have hseconds : Rule.checkSeconds Key.timeout.name v = .ok x := hcheck
    rcases Rule.checkSeconds_eq_ok_iff.1 hseconds with ⟨rfl, -⟩ | ⟨y, hread', -, rfl⟩
    · cases hread
    · obtain rfl := Option.some.inj (hread.symm.trans hread')
      exact hx

/-! ### Loading -/

/-- **Every configuration that is loaded can be used.**  Its time is no number if and only if the
entries of the configuration file have, under the name of that setting, a value that is read as no
number. -/
theorem load_usable {h : Host} {file : Option Path} {w : World}
    (hload : ((load s h file).perform w).1 = .ok c) :
    c.Usable ∧ (c.timeout = some (.real .nan) ↔
      ∃ entries v, fileOn w.disk file >>= entriesOn w.disk = .ok entries ∧
        (.text Key.timeout.name, v) ∈ entries ∧ Rule.secondsOf? v = some .nan) := by
  obtain ⟨entries, hentries, honce, hlayered⟩ := layered_of_load hload
  refine ⟨Config.usable_of_fits hlayered.fits, hlayered.timeout_nan_iff.trans ?_⟩
  have hwritten : written? h entries .timeout = Yaml.lookupText Key.timeout.name entries := rfl
  simp only [hwritten, Yaml.lookupText_eq_some_iff honce]
  constructor
  · rintro ⟨v, hmem, hread⟩
    exact ⟨entries, v, hentries, hmem, hread⟩
  · rintro ⟨entries', v, hentries', hmem, hread⟩
    obtain rfl := Except.ok.inj (hentries.symm.trans hentries')
    exact ⟨v, hmem, hread⟩

/-- A file whose time is a text, under a variable for the version. -/
theorem load_usable_file :
    let w := World.fresh (CommandLine.configuredDisk "timeout: \"2.5\"\nversion: 3\n") []
    let host : Host := ⟨"linux", "x86_64", [("BINFETCH_VERSION", "v2")]⟩
    ∃ c, ((load CommandLine.plainSite host none).perform w).1 = .ok c ∧
      c.Usable ∧ c.version = "v2" ∧ ∃ t, c.timeout = some t ∧ t.IsPositive := by
  intro w host
  let t : Seconds := .real (.finite false (5 * 2 ^ 50) (-51))
  have hload : ((load CommandLine.plainSite host none).perform w).1 =
      .ok { Config.standard CommandLine.plainSite with version := "v2", timeout := some t } := by
    decide +kernel
  obtain ⟨husable, -⟩ := load_usable hload
  exact ⟨_, hload, husable, rfl, t, rfl, (husable.timeout t rfl).resolve_right (by decide)⟩

/-- **A time that is no number** is loaded, and it is not above zero. -/
theorem load_time_without_number :
    let w := World.fresh (CommandLine.configuredDisk "timeout: .nan\n") []
    ∃ c, ((load CommandLine.plainSite ⟨"linux", "x86_64", []⟩ none).perform w).1 = .ok c ∧
      c.timeout = some (.real .nan) ∧ ¬ (Seconds.real .nan).IsPositive :=
  ⟨{ Config.standard CommandLine.plainSite with timeout := some (.real .nan) },
    by decide +kernel, rfl, Bool.false_ne_true⟩

end Settings

end ReleaseFetch
