/-
**What settings fail with where they are not refused.**

A configuration is refused where a key is no setting or a value does not fit, and a refusal is a
problem with a message.  The parts that decide on it meet failures of other kinds: a text that
cannot be decoded or holds a value out of range, a key that is no text, a user whose name nobody can
have or whose home directory is not known, a number that is too large.  Nothing makes refusals of
these.  This module lists them, part by part, and shows each list to be exact: what is no refusal is
on the list, and what is on the list comes out of the part.

Main definitions:

* `ReleaseFetch.Failure.isRefusal` — a configuration is refused;
* `ReleaseFetch.Leaks` — what a decision fails with where it does not refuse;
* `ReleaseFetch.Rule.Trouble`, `ReleaseFetch.Settings.Trouble`, `ReleaseFetch.ConfigFile.Trouble` —
  trouble with a value, with the entries of a file and with its text.

Main results:

* `ReleaseFetch.Rule.check_leaks` — the values that are neither accepted nor refused;
* `ReleaseFetch.Settings.ofEntries_leaks` — the entries that are neither;
* `ReleaseFetch.ConfigFile.settingsOfBytes_leaks` — the texts that are neither.
-/

import ReleaseFetch.Settings.Load
import ReleaseFetch.Proofs.Number.Overflow

set_option autoImplicit false

namespace ReleaseFetch

open Disk Session

/-! ### Refusals -/

/-- A configuration is refused. -/
def Failure.isRefusal : Failure → Bool
  | .problem (.config _) => true
  | _ => false

section Leaks

variable {α β : Type}

/-- A decision that fails without a refusal does so with what the condition says, and with all of
it. -/
def Leaks (r : Except Failure α) (T : Failure → Prop) : Prop :=
  ∀ f, (r = .error f ∧ f.isRefusal = false) ↔ T f

/-- A decision that succeeds or refuses. -/
abbrev Tight (r : Except Failure α) : Prop := Leaks r fun _ => False

namespace Leaks

variable {r : Except Failure α} {T U : Failure → Prop}

theorem ok (a : α) : Tight (.ok a) := by
  simp [Leaks]

theorem refusal {f : Failure} (hf : f.isRefusal = true) : Tight (.error f : Except Failure α) := by
  rintro g
  simp only [Except.error.injEq, iff_false, not_and, Bool.not_eq_false]
  rintro rfl
  exact hf

theorem error {f : Failure} (hf : f.isRefusal = false) :
    Leaks (.error f : Except Failure α) (· = f) := by
  intro g
  simp only [Except.error.injEq]
  refine ⟨fun h => h.1.symm, ?_⟩
  rintro rfl
  exact ⟨rfl, hf⟩

theorem congr (hr : Leaks r T) (h : ∀ f, T f ↔ U f) : Leaks r U := fun f => (hr f).trans (h f)

/-- Where the decision cannot leak, the condition is met by nothing. -/
theorem of_tight (hr : Tight r) (h : ∀ f, ¬ U f) : Leaks r U :=
  hr.congr fun f => (iff_false_intro (h f)).symm

/-- One decision after another. -/
theorem bind {s : α → Except Failure β} {S : α → Failure → Prop} (hr : Leaks r T)
    (hs : ∀ a, r = .ok a → Leaks (s a) (S a)) :
    Leaks (r >>= s) fun f => T f ∨ ∃ a, r = .ok a ∧ S a f := by
  intro f
  simp only [← hr f]
  cases r with
  | error g => simp [Bind.bind, Except.bind]
  | ok a => simpa [Bind.bind, Except.bind] using hs a rfl f

end Leaks

end Leaks

/-! ### Values -/

namespace Rule

/-- The rule names the values that it refuses.  A path is refused by the kind of the value alone,
and an integer is never refused for being none. -/
def names : Rule → Yaml.Value → Bool
  | .text, _ => true
  | .path _, _ => false
  | .count, .integer _ | .seconds, .integer _ => false
  | .count, _ | .seconds, _ => true

/-- **Trouble with a value**: a path names a user whose name cannot be encoded, or holds a NUL, or
whose home directory is not known; an integer is too large to be a number of seconds; or a value
that is refused by name holds an integer that cannot be written. -/
inductive Trouble (home? : String → Option String) : Rule → Yaml.Value → Failure → Prop
  | unencodable {mayBeUnset : Bool} {v : Yaml.Value} {stray : Text.Stray}
      (hstray : strayOf? v = some stray) :
      Trouble home? (.path mayBeUnset) v (.value .encoding stray.text)
  | embedded {mayBeUnset : Bool} {v : Yaml.Value} {p : Path} {user : String}
      (hencoded : strayOf? v = none) (hpath : pathOf? v = some p) (huser : p.user? = some user)
      (hnul : '\x00' ∈ user.toList) :
      Trouble home? (.path mayBeUnset) v (.badValue "embedded null byte")
  | homeless {mayBeUnset : Bool} {v : Yaml.Value} {p : Path} (hencoded : strayOf? v = none)
      (hpath : pathOf? v = some p) (hnul : ∀ user, p.user? = some user → '\x00' ∉ user.toList)
      (hhome : p.expandHome? home? = none) :
      Trouble home? (.path mayBeUnset) v (.value .runtime "Could not determine home directory.")
  | tooLarge {n : Int} (hlarge : (2 ^ 54 - 1) * 2 ^ 970 ≤ n.natAbs) :
      Trouble home? .seconds (.integer n) (.value .overflow "int too large to convert to float")
  | unwritable {rule : Rule} {v : Yaml.Value} (hnames : rule.names v = true)
      (hunwritable : v.isUnwritable = true) :
      Trouble home? rule v (.badValue Numeral.unwritableText)

variable {home? : String → Option String}

theorem refuse_tight {α : Type} (text : String) : Tight (refuse text : Except Failure α) :=
  .refusal rfl

theorem refuseValue_leaks {α : Type} (v : Yaml.Value) (text : String) :
    Leaks (refuseValue v text : Except Failure α)
      fun f => v.isUnwritable = true ∧ f = .badValue Numeral.unwritableText := by
  unfold refuseValue
  split
  · next h => exact (Leaks.error rfl).congr fun f => (and_iff_right h).symm
  · next h => exact (refuse_tight _).of_tight fun f hf => h hf.1

theorem natural_tight (name : String) (n : Int) : Tight (natural name n) := by
  cases n with
  | ofNat n => exact .ok _
  | negSucc n => exact refuse_tight _

theorem positive_tight (name : String) (x : Binary64) : Tight (positive name x) := by
  unfold positive
  split
  · exact refuse_tight _
  · exact .ok _

theorem realOfInt_leaks (n : Int) :
    Leaks (realOfInt n) fun f => (2 ^ 54 - 1) * 2 ^ 970 ≤ n.natAbs ∧
      f = .value .overflow "int too large to convert to float" := by
  unfold realOfInt
  split
  · next h =>
    exact (Leaks.error rfl).congr fun f => (and_iff_right (Binary64.ofInt_eq_infinite_iff.1 h).2).symm
  · next h =>
    refine (Leaks.ok _).of_tight fun f hf => ?_
    exact h _ (Binary64.ofInt_eq_infinite_iff.2 ⟨rfl, hf.1⟩)

/-- A value that is refused by name is in trouble if it cannot be written. -/
theorem refuseValue_trouble {rule : Rule} {v : Yaml.Value} (hnames : rule.names v = true)
    (text : String) : Leaks (refuseValue v text : Except Failure Setting) (Trouble home? rule v) := by
  refine (refuseValue_leaks v text).congr fun f => ⟨?_, ?_⟩
  · rintro ⟨hwritable, rfl⟩
    exact .unwritable hnames hwritable
  · intro h
    cases h with
    | unencodable | embedded | homeless | tooLarge => cases hnames
    | unwritable _ hwritable => exact ⟨hwritable, rfl⟩

/-- A path is in trouble for the user that it names. -/
theorem trouble_path_iff {mayBeUnset : Bool} {v : Yaml.Value} {p : Path} {f : Failure}
    (hpath : pathOf? v = some p) :
    Trouble home? (.path mayBeUnset) v f ↔
      (∃ stray, strayOf? v = some stray ∧ f = .value .encoding stray.text) ∨
      strayOf? v = none ∧
        ((∃ user, p.user? = some user ∧ '\x00' ∈ user.toList) ∧ f = .badValue "embedded null byte" ∨
          (∀ user, p.user? = some user → '\x00' ∉ user.toList) ∧ p.expandHome? home? = none ∧
            f = .value .runtime "Could not determine home directory.") := by
  constructor
  · intro h
    cases h with
    | unencodable hstray => exact .inl ⟨_, hstray, rfl⟩
    | embedded hencoded hpath' huser hnul =>
        obtain rfl := Option.some.inj (hpath.symm.trans hpath')
        exact .inr ⟨hencoded, .inl ⟨⟨_, huser, hnul⟩, rfl⟩⟩
    | homeless hencoded hpath' hnul hhome =>
        obtain rfl := Option.some.inj (hpath.symm.trans hpath')
        exact .inr ⟨hencoded, .inr ⟨hnul, hhome, rfl⟩⟩
    | unwritable hnames => cases hnames
  · rintro (⟨stray, hstray, rfl⟩ | ⟨hencoded, ⟨⟨user, huser, hnul⟩, rfl⟩ | ⟨hnul, hhome, rfl⟩⟩)
    · exact .unencodable hstray
    · exact .embedded hencoded hpath huser hnul
    · exact .homeless hencoded hpath hnul hhome

theorem expand_trouble {v : Yaml.Value} {p : Path} (mayBeUnset : Bool) (hpath : pathOf? v = some p) :
    Leaks (expand home? v p) (Trouble home? (.path mayBeUnset) v) := by
  have hcontains : (p.user?.any fun user => user.toList.contains '\x00') = true ↔
      ∃ user, p.user? = some user ∧ '\x00' ∈ user.toList := by
    cases p.user? <;> simp
  refine .congr ?_ fun f => (trouble_path_iff hpath).symm
  unfold expand
  split
  · next stray hstray =>
    refine (Leaks.error rfl).congr fun f => ?_
    simp [hstray]
  · next hencoded =>
    split
    · next h =>
      obtain ⟨user, huser, hnul⟩ := hcontains.1 h
      refine (Leaks.error rfl).congr fun f => ?_
      simp [hencoded, huser, hnul]
    · next h =>
      have hnone : ¬ ∃ user, p.user? = some user ∧ '\x00' ∈ user.toList :=
        fun hex => h (hcontains.2 hex)
      have hall : ∀ user, p.user? = some user → '\x00' ∉ user.toList := fun user huser hnul =>
        hnone ⟨user, huser, hnul⟩
      split
      · next hhome =>
        refine (Leaks.ok _).of_tight fun f => ?_
        simp [hencoded, hhome, hnone]
      · next hhome =>
        refine (Leaks.error rfl).congr fun f => ?_
        simp only [hencoded, hhome, hnone, false_and, false_or, true_and, and_iff_right hall,
          reduceCtorEq, exists_false]

theorem checkPath_leaks (mayBeUnset : Bool) (name : String) (v : Yaml.Value) :
    Leaks (checkPath home? mayBeUnset name v) (Trouble home? (.path mayBeUnset) v) := by
  unfold checkPath
  simp only
  split
  · next hpath => exact expand_trouble mayBeUnset hpath
  · next hpath =>
    -- only texts and paths name users
    have hnone (f : Failure) : ¬ Trouble home? (.path mayBeUnset) v f := by
      intro h
      cases h with
      | unencodable hstray => cases v <;> first | cases hstray | cases hpath
      | embedded _ hpath' | homeless _ hpath' => rw [hpath] at hpath'; cases hpath'
      | unwritable hnames => cases hnames
    refine Leaks.of_tight ?_ hnone
    split
    · split
      · exact .ok _
      · exact refuse_tight _
    · exact refuse_tight _

theorem checkCount_leaks (name : String) (v : Yaml.Value) :
    Leaks (checkCount name v) (Trouble home? .count v) := by
  unfold checkCount
  simp only
  split
  · refine (natural_tight name _).of_tight ?_
    intro f h
    cases h with
    | unwritable hnames => cases hnames
  · split
    · refine (natural_tight name _).of_tight ?_
      intro f h
      cases h with
      | unwritable _ hwritable => cases hwritable
    · exact refuseValue_trouble rfl _
  · next hinteger _ =>
    refine refuseValue_trouble ?_ _
    cases v <;> first | rfl | exact absurd rfl (hinteger _)

theorem checkSeconds_leaks (name : String) (v : Yaml.Value) :
    Leaks (checkSeconds name v) (Trouble home? .seconds v) := by
  have hwritten {v : Yaml.Value} (hinteger : ∀ n, v ≠ .integer n) (hwritable : v.isUnwritable = false)
      (f : Failure) : ¬ Trouble home? .seconds v f := by
    intro h
    cases h with
    | tooLarge => exact hinteger _ rfl
    | unwritable _ hv => rw [hwritable] at hv; cases hv
  unfold checkSeconds
  simp only
  split
  · exact (Leaks.ok _).of_tight (hwritten nofun rfl)
  · next n =>
    -- an integer is turned into a number before its sign is looked at
    have hbind : Leaks (realOfInt n >>= positive name) (Trouble home? .seconds (.integer n)) := by
      refine ((realOfInt_leaks n).bind fun x _ => positive_tight name x).congr fun f => ⟨?_, ?_⟩
      · rintro (⟨hlarge, rfl⟩ | ⟨_, _, hfalse⟩)
        · exact .tooLarge hlarge
        · exact hfalse.elim
      · intro h
        cases h with
        | tooLarge hlarge => exact .inl ⟨hlarge, rfl⟩
        | unwritable hnames => cases hnames
    cases hreal : realOfInt n with
    | ok x =>
        rw [hreal] at hbind
        exact hbind
    | error f =>
        rw [hreal] at hbind
        exact hbind
  · exact (positive_tight name _).of_tight (hwritten nofun rfl)
  · split
    · exact (positive_tight name _).of_tight (hwritten nofun rfl)
    · exact refuseValue_trouble rfl _
  · split
    · exact (positive_tight name _).of_tight (hwritten nofun rfl)
    · exact refuseValue_trouble rfl _
  · next hinteger _ _ _ =>
    refine refuseValue_trouble ?_ _
    cases v <;> first | rfl | exact absurd rfl (hinteger _)

theorem checkText_leaks (name : String) (v : Yaml.Value) :
    Leaks (checkText name v) (Trouble home? .text v) := by
  unfold checkText
  simp only
  split
  · split
    · exact refuseValue_trouble rfl _
    · refine (Leaks.ok _).of_tight ?_
      intro f h
      cases h with
      | unwritable _ hwritable => cases hwritable
  · split
    · exact refuseValue_trouble rfl _
    · refine (Leaks.ok _).of_tight ?_
      intro f h
      cases h with
      | unwritable _ hwritable => cases hwritable
  · exact refuseValue_trouble rfl _

/-- **A value is checked without a refusal and without a setting** exactly where it is in trouble.
-/
theorem check_leaks (name : String) (rule : Rule) (v : Yaml.Value) :
    Leaks (rule.check home? name v) (Trouble home? rule v) := by
  cases rule with
  | text => exact checkText_leaks name v
  | path mayBeUnset => exact checkPath_leaks mayBeUnset name v
  | count => exact checkCount_leaks name v
  | seconds => exact checkSeconds_leaks name v

end Rule

/-! ### Settings -/

namespace Settings

variable {s : Site}

theorem apply_leaks (c : Config) (key : Key) (v : Yaml.Value) :
    Leaks (apply s c key v) (Rule.Trouble s.home? key.rule v) := by
  have hcheck : Leaks (key.rule.check s.home? key.name v) (Rule.Trouble s.home? key.rule v) :=
    Rule.check_leaks key.name key.rule v
  intro f
  rw [← hcheck f, apply]
  cases key.rule.check s.home? key.name v <;> simp

/-- **Trouble with one of several settings**, which are checked in order: those before it are
accepted. -/
inductive Unsettled (s : Site) : List (Key × Yaml.Value) → Failure → Prop
  | here {key : Key} {v : Yaml.Value} {rest : List (Key × Yaml.Value)} {f : Failure}
      (htrouble : Rule.Trouble s.home? key.rule v f) : Unsettled s ((key, v) :: rest) f
  | later {key : Key} {v : Yaml.Value} {rest : List (Key × Yaml.Value)} {f : Failure} {x : Setting}
      (hcheck : key.rule.check s.home? key.name v = .ok x) (hrest : Unsettled s rest f) :
      Unsettled s ((key, v) :: rest) f

theorem apply_eq_ok_iff {c c' : Config} {key : Key} {v : Yaml.Value} :
    apply s c key v = .ok c' ↔
      ∃ x, key.rule.check s.home? key.name v = .ok x ∧ c.set key x = c' := by
  unfold apply
  cases key.rule.check s.home? key.name v <;> simp

theorem build_leaks (settings : List (Key × Yaml.Value)) :
    Leaks (build s settings) (Unsettled s settings) := by
  unfold build
  -- induction on the settings, for every configuration that they are applied to
  generalize Config.standard s = c
  induction settings generalizing c with
  | nil => exact (Leaks.ok c).of_tight fun f h => by cases h
  | cons setting rest ih =>
      obtain ⟨key, v⟩ := setting
      rw [List.foldlM_cons]
      refine ((apply_leaks c key v).bind fun c' _ => ih c').congr fun f => ⟨?_, ?_⟩
      · rintro (htrouble | ⟨c', hc', hrest⟩)
        · exact .here htrouble
        · obtain ⟨x, hcheck, -⟩ := apply_eq_ok_iff.1 hc'
          exact .later hcheck hrest
      · intro h
        cases h with
        | here htrouble => exact .inl htrouble
        | later hcheck hrest => exact .inr ⟨_, apply_eq_ok_iff.2 ⟨_, hcheck, rfl⟩, hrest⟩

/-! ### Keys -/

/-- The keys that are no settings. -/
def strangers (entries : ConfigFile.Entries) : List Yaml.Value :=
  (entries.map (·.1)).filter fun k => (keyOf? k).isNone

/-- The settings among entries. -/
def known (entries : ConfigFile.Entries) : List (Key × Yaml.Value) :=
  entries.filterMap fun (k, v) => (keyOf? k).map (·, v)

/-- What is said of keys that are no settings and cannot all be named. -/
def nameless (first : Yaml.Value) (rest : List Yaml.Value) : String :=
  (unorderedFault? (first :: rest)).getD
    s!"sequence item 0: expected str instance, {(rest.foldl smaller first).fullKind} found"

/-- Texts are missing where one is. -/
theorem mapM_textOf?_eq_none_iff {keys : List Yaml.Value} :
    keys.mapM textOf? = none ↔ ∃ k ∈ keys, textOf? k = none := by
  induction keys with
  | nil => simp
  | cons k rest ih =>
      rw [List.mapM_cons]
      cases hk : textOf? k with
      | none => simp [hk]
      | some name => cases hrest : rest.mapM textOf? <;> simp_all

theorem refusal_leaks (first : Yaml.Value) (rest : List Yaml.Value) :
    Leaks (.error (refusal first rest) : Except Failure Config) fun f =>
      (∃ k ∈ first :: rest, textOf? k = none) ∧ f = .value .type (nameless first rest) := by
  rw [← mapM_textOf?_eq_none_iff]
  unfold refusal nameless
  split
  · next names hnames =>
    refine (Leaks.refusal rfl).of_tight fun f h => ?_
    rw [hnames] at h
    cases h.1
  · next hnone =>
    cases unorderedFault? (first :: rest) with
    | none => exact (Leaks.error rfl).congr fun f => (and_iff_right hnone).symm
    | some text => exact (Leaks.error rfl).congr fun f => (and_iff_right hnone).symm

/-- A key that is no text is no setting. -/
theorem keyOf?_of_nameless {k : Yaml.Value} (hk : textOf? k = none) : keyOf? k = none := by
  cases k <;> first | rfl | cases hk

/-- **Trouble with entries**: one of the keys is no text, or all keys are settings and one of these
is in trouble. -/
inductive Trouble (s : Site) (entries : ConfigFile.Entries) : Failure → Prop
  | key {first : Yaml.Value} {rest : List Yaml.Value} (hstrangers : strangers entries = first :: rest)
      (hname : ∃ k ∈ entries.map (·.1), textOf? k = none) :
      Trouble s entries (.value .type (nameless first rest))
  | value {f : Failure} (hstrangers : strangers entries = []) (hvalue : Unsettled s (known entries) f) :
      Trouble s entries f

/-- **Entries fail without a refusal** exactly where they are in trouble. -/
theorem ofEntries_leaks (entries : ConfigFile.Entries) :
    Leaks (ofEntries s entries) (Trouble s entries) := by
  have hmem (k : Yaml.Value) : k ∈ strangers entries ↔ k ∈ entries.map (·.1) ∧ keyOf? k = none := by
    rw [strangers, List.mem_filter, Option.isNone_iff_eq_none]
  unfold ofEntries
  split
  · next first rest hfirst =>
    have hstrangers : strangers entries = first :: rest := hfirst
    refine (refusal_leaks first rest).congr fun f => ⟨?_, ?_⟩
    · rintro ⟨⟨k, hk, hname⟩, rfl⟩
      exact .key hstrangers ⟨k, ((hmem k).1 (hstrangers ▸ hk)).1, hname⟩
    · intro h
      cases h with
      | key hstrangers' hname =>
          obtain ⟨rfl, rfl⟩ := List.cons.inj (hstrangers'.symm.trans hstrangers)
          obtain ⟨k, hk, hname⟩ := hname
          exact ⟨⟨k, hstrangers ▸ (hmem k).2 ⟨hk, keyOf?_of_nameless hname⟩, hname⟩, rfl⟩
      | value hnone => rw [hstrangers] at hnone; cases hnone
  · next hfirst =>
    have hstrangers : strangers entries = [] := hfirst
    refine (build_leaks _).congr fun f => ⟨fun h => .value hstrangers h, fun h => ?_⟩
    cases h with
    | key hstrangers' => rw [hstrangers] at hstrangers'; cases hstrangers'
    | value _ hvalue => exact hvalue

end Settings

/-! ### The text of a file -/

namespace ConfigFile

/-- **Trouble with the text of a file**: what is read of it holds a value that cannot be made, or
bytes that are no text are met. -/
inductive Trouble (bytes : List UInt8) : Failure → Prop
  | value {kind : ValueFault} {text : String}
      (htext : Yaml.Document.ofText (source bytes).1 (source bytes).2 = .error (.value kind text)) :
      Trouble bytes (.value kind text)
  | encoding {fault : Text.Utf8.Fault}
      (htext : Yaml.Document.ofText (source bytes).1 (source bytes).2 = .error (.encoding fault)) :
      Trouble bytes (.encoding fault)

theorem sectionOf_refuses {d : Yaml.Document} {entries : List (Yaml.Value × Yaml.Part)} {p : Problem}
    (h : sectionOf d entries = .error p) : (Failure.problem p).isRefusal = true := by
  unfold sectionOf at h
  split at h
  · cases h
  · split at h
    · cases h
    · split at h
      · cases h
      · cases h
        rfl

theorem settingsOf_refuses {name : String} {d : Yaml.Document} {p : Problem}
    (h : settingsOf name d = .error p) : (Failure.problem p).isRefusal = true := by
  unfold settingsOf at h
  split at h
  · cases h
  · split at h
    · cases h
      rfl
    · next entries _ =>
      cases hsection : sectionOf d entries with
      | error q =>
          rw [hsection] at h
          cases h
          exact sectionOf_refuses hsection
      | ok settings =>
          rw [hsection] at h
          cases h

/-- **The text of a file fails without a refusal** exactly where it is in trouble. -/
theorem settingsOfBytes_leaks (name : String) (bytes : List UInt8) :
    Leaks (settingsOfBytes name bytes) (Trouble bytes) := by
  have hread {r : Except Yaml.Fault (Option Yaml.Document)}
      (h : Yaml.Document.ofText (source bytes).1 (source bytes).2 = r)
      (hr : r = .error .malformed ∨ ∃ d, r = .ok d) (f : Failure) : ¬ Trouble bytes f := by
    intro ht
    cases ht with
    | value htext => rw [← h, htext] at hr; simp at hr
    | encoding htext => rw [← h, htext] at hr; simp at hr
  unfold settingsOfBytes
  simp only
  split
  · next h => exact (Leaks.refusal rfl).of_tight (hread h (.inl rfl))
  · next h =>
    refine (Leaks.error rfl).congr fun f => ⟨?_, fun ht => ?_⟩
    · rintro rfl
      exact .value h
    · cases ht with
      | value htext => rw [h] at htext; cases htext; rfl
      | encoding htext => rw [h] at htext; cases htext
  · next h =>
    refine (Leaks.error rfl).congr fun f => ⟨?_, fun ht => ?_⟩
    · rintro rfl
      exact .encoding h
    · cases ht with
      | value htext => rw [h] at htext; cases htext
      | encoding htext => rw [h] at htext; cases htext; rfl
  · next h => exact (Leaks.ok _).of_tight (hread h (.inr ⟨_, rfl⟩))
  · next d h =>
    refine Leaks.of_tight ?_ (hread h (.inr ⟨_, rfl⟩))
    cases hsettings : settingsOf name d with
    | ok entries => exact .ok _
    | error p => exact .refusal (settingsOf_refuses hsettings)

end ConfigFile

end ReleaseFetch
