/-
**The layers of a configuration.**

A setting is written by its variable, unless that is unset or empty, or else in the file; a setting
that is not written keeps its default.  Only what is written is checked, so a value in the file is
not looked at where a variable is laid over it.  A mapping that is read has every text for a key at
most once, which is why laying a value over the entries leaves nothing of the one below.

Main definitions:

* `ReleaseFetch.Config.setting?` — a configuration as its settings;
* `ReleaseFetch.Settings.overriding?`, `ReleaseFetch.Settings.written?` — what a variable says of a
  setting, and what is written for it;
* `ReleaseFetch.Settings.Layered` — the configuration of what is written;
* `ReleaseFetch.Settings.SameUnder` — entries that differ only where a variable is laid over them.

Main results:

* `ReleaseFetch.ConfigFile.textsOnce_entriesOn` — the keys of the entries of a file;
* `ReleaseFetch.Settings.foldlM_setting?`, `ReleaseFetch.Settings.foldlM_succeeds_iff` — all
  settings, by induction;
* `ReleaseFetch.Settings.ofEntries_succeeds_iff`,
  `ReleaseFetch.Settings.ofEntries_eq_ok_iff_layered` — the configuration of entries;
* `ReleaseFetch.Settings.lookupText_layers` — variables laid over entries;
* `ReleaseFetch.Settings.override_sameUnder` — what lies under a variable does not show;
* `ReleaseFetch.Settings.load_layers` — the configuration of a run.
-/

import Mathlib.Data.List.Forall2
import ReleaseFetch.Proofs.Settings.Accepting
import ReleaseFetch.Proofs.Settings.Loading
import ReleaseFetch.Proofs.Yaml.Keys

set_option autoImplicit false

namespace ReleaseFetch

/-! ### The entries of a file -/

namespace ConfigFile

open Yaml

theorem textsOnce_sectionOf {d : Document} {entries inner : List (Value × Part)}
    (hmappings : ∀ p found, d.entries? p = some found → TextsOnce (found.map (·.1)))
    (hentries : TextsOnce (entries.map (·.1))) (h : sectionOf d entries = .ok inner) :
    TextsOnce (inner.map (·.1)) := by
  unfold sectionOf at h
  split at h
  · cases h
    exact hentries
  · split at h
    · cases h
      exact List.Pairwise.nil
    · split at h
      · next found hfound =>
        cases h
        exact hmappings _ _ hfound
      · cases h

theorem textsOnce_settingsOf {d : Document} {name : String} {entries : Entries}
    (hmappings : ∀ p found, d.entries? p = some found → TextsOnce (found.map (·.1)))
    (h : settingsOf name d = .ok entries) : TextsOnce (entries.map (·.1)) := by
  unfold settingsOf at h
  split at h
  · cases h
    exact List.Pairwise.nil
  · split at h
    · cases h
    · next found hfound =>
      cases hsection : sectionOf d found with
      | error p => rw [hsection] at h; cases h
      | ok inner =>
          rw [hsection] at h
          cases h
          exact (textsOnce_sectionOf hmappings (hmappings _ _ hfound) hsection).zip _

theorem textsOnce_settingsOfBytes {name : String} {bytes : List UInt8} {entries : Entries}
    (h : settingsOfBytes name bytes = .ok entries) : TextsOnce (entries.map (·.1)) := by
  unfold settingsOfBytes at h
  simp only at h
  split at h
  · cases h
  · cases h
  · cases h
  · cases h
    exact List.Pairwise.nil
  · next d hd =>
    cases hsettings : settingsOf name d with
    | error p => rw [hsettings] at h; cases h
    | ok found =>
        rw [hsettings] at h
        cases h
        exact textsOnce_settingsOf (fun p found => Document.textsOnce hd) hsettings

/-- **In the entries of a file a text is a key at most once.** -/
theorem textsOnce_entriesOn {d : Disk} {p : Option Path} {entries : Entries}
    (h : Settings.entriesOn d p = .ok entries) : TextsOnce (entries.map (·.1)) := by
  unfold Settings.entriesOn at h
  split at h
  · cases h
    exact List.Pairwise.nil
  · split at h
    · split at h <;> cases h
    · exact textsOnce_settingsOfBytes h

end ConfigFile

/-! ### Values laid over entries -/

namespace Yaml

variable {key : Value} {name other : String} {v w : Value} {entries : List (Value × Value)}

theorem isSameKey_text_iff : key.isSameKey (.text name) = true ↔ key = .text name := by
  cases key with
  | real x => cases hx : x.toInt? <;> simp [Value.isSameKey, Value.wholeNumber?, hx]
  | _ => simp [Value.isSameKey, Value.wholeNumber?]

theorem lookupText_cons : lookupText name ((key, v) :: entries) =
    if key.isSameKey (.text name) then some v else lookupText name entries := by
  by_cases hkey : key = .text name
  · rw [if_pos (isSameKey_text_iff.2 hkey), hkey, lookupText]
    exact if_pos rfl
  · rw [if_neg fun hsame => hkey (isSameKey_text_iff.1 hsame)]
    cases key with
    | text s => exact if_neg fun hs => hkey (congrArg Value.text hs)
    | _ => rfl

/-- Only the text that is put in changes its value. -/
theorem lookupText_insert : lookupText name (insert (.text other) v entries) =
    if name = other then some v else lookupText name entries := by
  have hsame : (Value.text other).isSameKey (.text name) = true ↔ name = other := by
    rw [isSameKey_text_iff, Value.text.injEq, eq_comm]
  induction entries with
  | nil => rw [insert, lookupText_cons, if_congr hsame rfl rfl]
  | cons e rest ih =>
      obtain ⟨key, w⟩ := e
      rw [insert]
      split
      · next hkey =>
        rw [isSameKey_text_iff.1 hkey, lookupText_cons, lookupText_cons, if_congr hsame rfl rfl,
          if_congr hsame rfl rfl]
        split <;> rfl
      · next hkey =>
        rw [lookupText_cons, lookupText_cons, ih]
        by_cases hname : name = other
        · subst hname
          rw [if_pos rfl, if_pos rfl, if_neg hkey]
        · rw [if_neg hname, if_neg hname]

/-- Where texts are keys once, what is looked up is what is there. -/
theorem lookupText_eq_some_iff (honce : TextsOnce (entries.map (·.1))) :
    lookupText name entries = some v ↔ (.text name, v) ∈ entries := by
  induction entries with
  | nil => exact iff_of_false nofun List.not_mem_nil
  | cons e rest ih =>
      obtain ⟨key, w⟩ := e
      obtain ⟨hfirst, hothers⟩ := List.pairwise_cons.1 honce
      rw [lookupText_cons, List.mem_cons, Prod.mk.injEq]
      split
      · next hkey =>
        obtain rfl := isSameKey_text_iff.1 hkey
        have hlater : (.text name, v) ∉ rest := fun hmem =>
          hfirst _ (List.mem_map.2 ⟨_, hmem, rfl⟩) name rfl rfl
        simp [hlater, eq_comm]
      · next hkey =>
        have hname : ¬ Value.text name = key := fun heq => hkey (isSameKey_text_iff.2 heq.symm)
        rw [ih hothers, or_iff_right fun h => hname h.1]

/-- A text that is put in is a key already, or it comes to the keys. -/
theorem keys_insert (name : String) (v : Value) (entries : List (Value × Value)) :
    (insert (.text name) v entries).map (·.1) = entries.map (·.1) ∨
      (insert (.text name) v entries).map (·.1) = entries.map (·.1) ++ [.text name] ∧
        .text name ∉ entries.map (·.1) := by
  induction entries with
  | nil => exact .inr ⟨rfl, List.not_mem_nil⟩
  | cons e rest ih =>
      rw [insert]
      split
      · exact .inl rfl
      · next hkey =>
        refine ih.imp (congrArg (e.1 :: ·)) fun h => ⟨congrArg (e.1 :: ·) h.1, fun hmem => ?_⟩
        rcases List.mem_cons.1 hmem with heq | hrest
        · exact hkey (isSameKey_text_iff.2 heq.symm)
        · exact h.2 hrest

theorem TextsOnce.insert (h : TextsOnce (entries.map (·.1))) :
    TextsOnce ((insert (.text name) v entries).map (·.1)) := by
  rcases keys_insert name v entries with hkeys | ⟨hkeys, hnew⟩
  · rwa [hkeys]
  · rw [hkeys]
    refine List.pairwise_append.2 ⟨h, List.pairwise_singleton _ _, fun k hk l hl s hks hls => ?_⟩
    obtain rfl := List.mem_singleton.1 hl
    exact hnew (hls.trans hks.symm ▸ hk)

/-! ### Entries that differ -/

/-- The same keys in the same order, with the same values but for some of the keys. -/
def AgreeBut (P : Value → Prop) : List (Value × Value) → List (Value × Value) → Prop :=
  List.Forall₂ fun e e' => e'.1 = e.1 ∧ (e'.2 = e.2 ∨ P e.1)

variable {P : Value → Prop} {entries' : List (Value × Value)}

theorem AgreeBut.eq (h : AgreeBut (fun _ => False) entries entries') : entries = entries' := by
  induction h with
  | nil => rfl
  | cons he _ ih =>
      rw [ih]
      exact congrArg (· :: _) (Prod.ext he.1.symm (he.2.resolve_right id).symm)

theorem AgreeBut.mono {Q : Value → Prop} (h : AgreeBut P entries entries')
    (hPQ : ∀ e ∈ entries, P e.1 → Q e.1) : AgreeBut Q entries entries' := by
  induction h with
  | nil => exact .nil
  | cons he _ ih =>
      obtain ⟨hfirst, hrest⟩ := List.forall_mem_cons.1 hPQ
      exact .cons ⟨he.1, he.2.imp_right hfirst⟩ (ih hrest)

/-- Entries do not differ any more in the text that is put in on both sides. -/
theorem AgreeBut.insert (hagree : AgreeBut P entries entries') (honce : TextsOnce (entries.map (·.1))) :
    AgreeBut (fun k => P k ∧ k ≠ .text name) (insert (.text name) v entries)
      (insert (.text name) v entries') := by
  induction hagree with
  | nil => exact .cons ⟨rfl, .inl rfl⟩ .nil
  | cons he hrest ih =>
      obtain ⟨hfirst, hothers⟩ := List.pairwise_cons.1 honce
      rw [Yaml.insert, Yaml.insert, he.1]
      split
      · next hkey =>
        -- the text is no key behind its entry
        have hstay : AgreeBut (fun k => P k ∧ k ≠ .text name) _ _ :=
          AgreeBut.mono hrest fun e hmem hP =>
            ⟨hP, hfirst e.1 (List.mem_map_of_mem hmem) name (isSameKey_text_iff.1 hkey)⟩
        exact .cons ⟨rfl, .inl rfl⟩ hstay
      · next hkey =>
        refine .cons ⟨rfl, he.2.imp_right fun hP => ⟨hP, fun heq => ?_⟩⟩ (ih hothers)
        exact hkey (isSameKey_text_iff.2 heq)

end Yaml

/-! ### Settings and their names -/

namespace Key

theorem ofName?_name (key : Key) : ofName? key.name = some key := by
  cases key <;> decide

theorem name_inj {key other : Key} : key.name = other.name ↔ key = other := by
  refine ⟨fun h => ?_, congrArg name⟩
  have hof := congrArg ofName? h
  rw [ofName?_name, ofName?_name] at hof
  exact Option.some.inj hof

/-- The variable for a setting. -/
def ownVariable? : Key → Option String
  | .version => some "BINFETCH_VERSION"
  | .binDir => some "BINFETCH_BIN_DIR"
  | .cacheDir => some "BINFETCH_CACHE_DIR"
  | _ => none

/-- The variable for a setting is the one that the table has for it. -/
theorem ownVariable?_eq (key : Key) :
    key.ownVariable? = (Settings.overrides.find? fun o => o.2 = key).map Prod.fst := by
  cases key <;> rfl

end Key

/-! ### Configurations as settings -/

/-- The setting of a configuration, if a setting can say it: a count that is negative and a time
that is no decimal are none. -/
def Config.setting? (c : Config) : Key → Option Setting
  | .toolName => some (.text c.toolName)
  | .repo => some (.text c.repo)
  | .version => some (.text c.version)
  | .apiHost => some (.text c.apiHost)
  | .userAgent => some (.text c.userAgent)
  | .binDir => some (.path c.binDir)
  | .cacheDir => some (c.cacheDir.elim .unset .path)
  | .maxRedirects => c.maxRedirects.toNat?.map .count
  | .timeout =>
    match c.timeout with
    | none => some .unset
    | some (.real x) => some (.seconds x)
    | some (.whole _) => none

/-- Only the setting that is set changes. -/
theorem Config.setting?_set (c : Config) {key : Key} {x : Setting} (hx : key.rule.Fits x)
    (other : Key) : (c.set key x).setting? other = if other = key then some x else c.setting? other := by
  cases key with
  | toolName | repo | version | apiHost | userAgent =>
      obtain ⟨s, rfl, -⟩ := Rule.fits_text hx
      cases other <;> rfl
  | binDir | cacheDir | maxRedirects =>
      cases hx <;> cases other <;> rfl
  | timeout =>
      rcases Rule.fits_seconds hx with rfl | ⟨y, rfl, -⟩ <;> cases other <;> rfl

/-- **Every default is accepted** by the rule of its setting. -/
theorem Config.fits_standard (s : Site) (key : Key) :
    ∃ x, (standard s).setting? key = some x ∧ key.rule.Fits x := by
  cases key with
  | toolName => exact ⟨_, rfl, .text (by decide : "aidbox-cli" ≠ "")⟩
  | repo => exact ⟨_, rfl, .text (by decide : "octoshikari/aidbox-cli" ≠ "")⟩
  | version => exact ⟨_, rfl, .text (by decide : "v0.4.3" ≠ "")⟩
  | apiHost => exact ⟨_, rfl, .text (by decide : defaultTrustedHost ≠ "")⟩
  | userAgent => exact ⟨_, rfl, .text (by decide : "aidbox-cli" ≠ "")⟩
  | binDir => exact ⟨_, rfl, .path _⟩
  | cacheDir => exact ⟨_, rfl, .noPath⟩
  | maxRedirects => exact ⟨_, rfl, .count _⟩
  | timeout => exact ⟨_, rfl, .noSeconds⟩

/-- A configuration is known by its settings. -/
theorem Config.eq_of_setting? {c c' : Config} (hall : ∀ key, (c.setting? key).isSome)
    (hsame : ∀ key, c.setting? key = c'.setting? key) : c = c' := by
  have htool : c.toolName = c'.toolName := by simpa [setting?] using hsame .toolName
  have hrepo : c.repo = c'.repo := by simpa [setting?] using hsame .repo
  have hversion : c.version = c'.version := by simpa [setting?] using hsame .version
  have hhost : c.apiHost = c'.apiHost := by simpa [setting?] using hsame .apiHost
  have hagent : c.userAgent = c'.userAgent := by simpa [setting?] using hsame .userAgent
  have hbin : c.binDir = c'.binDir := by simpa [setting?] using hsame .binDir
  have hcache : c.cacheDir = c'.cacheDir := by
    have h := hsame .cacheDir
    simp only [setting?] at h
    cases hc : c.cacheDir <;> cases hc' : c'.cacheDir <;> simp_all
  have hcount : c.maxRedirects = c'.maxRedirects := by
    obtain ⟨x, hx⟩ := Option.isSome_iff_exists.1 (hall .maxRedirects)
    obtain ⟨n, hn, rfl⟩ := Option.map_eq_some_iff.1 hx
    obtain ⟨m, hm, hsetting⟩ := Option.map_eq_some_iff.1 ((hsame .maxRedirects).symm.trans hx)
    obtain rfl := Setting.count.inj hsetting
    rw [Int.mem_toNat?.1 hn, Int.mem_toNat?.1 hm]
  have htime : c.timeout = c'.timeout := by
    have h := hsame .timeout
    have hsome := hall .timeout
    simp only [setting?] at h hsome
    rcases hc : c.timeout with _ | ⟨_ | _⟩ <;> rcases hc' : c'.timeout with _ | ⟨_ | _⟩ <;> simp_all
  cases c
  cases c'
  simp_all

namespace Settings

open Session

/-! ### All settings -/

variable {s : Site} {h : Host} {c c' : Config} {key : Key} {entries entries' : ConfigFile.Entries}
  {settings : List (Key × Yaml.Value)}

theorem apply_setting? {v : Yaml.Value} (happly : apply s c key v = .ok c') :
    ∃ x, key.rule.check s.home? key.name v = .ok x ∧
      ∀ other, c'.setting? other = if other = key then some x else c.setting? other := by
  obtain ⟨x, hcheck, rfl⟩ := apply_eq_ok_iff.1 happly
  exact ⟨x, hcheck, c.setting?_set (Rule.fits_of_check hcheck)⟩

/-- **What settings come to**: a setting that is given is what its value is accepted as, and another
one is left as it is. -/
theorem foldlM_setting? (hnodup : (settings.map Prod.fst).Nodup)
    (hfold : settings.foldlM (fun c (key, v) => apply s c key v) c = .ok c') (key : Key) :
    (∀ v, (key, v) ∈ settings →
        ∃ x, key.rule.check s.home? key.name v = .ok x ∧ c'.setting? key = some x) ∧
      ((∀ v, (key, v) ∉ settings) → c'.setting? key = c.setting? key) := by
  induction settings generalizing c with
  | nil =>
      obtain rfl := Except.ok.inj hfold
      exact ⟨fun _ hmem => absurd hmem List.not_mem_nil, fun _ => rfl⟩
  | cons setting rest ih =>
      obtain ⟨other, w⟩ := setting
      obtain ⟨hnew, hrestOnce⟩ := List.nodup_cons.1 hnodup
      rw [List.foldlM_cons] at hfold
      obtain ⟨c₁, happly, hrest⟩ := decided_bind hfold
      obtain ⟨x, hcheck, hset⟩ := apply_setting? happly
      obtain ⟨hgiven, hleft⟩ := ih hrestOnce hrest
      refine ⟨fun v hv => ?_, fun hnot => ?_⟩
      · rcases List.mem_cons.1 hv with heq | hlater
        · obtain ⟨rfl, rfl⟩ := Prod.mk.inj heq
          -- nothing after it says anything of the same setting
          have hnot : ∀ w, (key, w) ∉ rest := fun w hw => hnew (List.mem_map.2 ⟨(key, w), hw, rfl⟩)
          exact ⟨x, hcheck, by rw [hleft hnot, hset, if_pos rfl]⟩
        · exact hgiven v hlater
      · have hkey : key ≠ other := fun heq => hnot w (heq ▸ List.mem_cons_self)
        rw [hleft fun v hv => hnot v (List.mem_cons_of_mem _ hv), hset, if_neg hkey]

/-- **All settings are taken** if each of them is accepted. -/
theorem foldlM_succeeds_iff :
    (∃ c', settings.foldlM (fun c (key, v) => apply s c key v) c = .ok c') ↔
      ∀ key v, (key, v) ∈ settings → ∃ x, key.rule.check s.home? key.name v = .ok x := by
  induction settings generalizing c with
  | nil => exact iff_of_true ⟨c, rfl⟩ fun _ _ hmem => absurd hmem List.not_mem_nil
  | cons setting rest ih =>
      obtain ⟨other, w⟩ := setting
      rw [List.foldlM_cons]
      refine ⟨fun ⟨c', hc'⟩ key v hv => ?_, fun hall => ?_⟩
      · obtain ⟨c₁, happly, hrest⟩ := decided_bind hc'
        obtain ⟨x, hcheck, -⟩ := apply_eq_ok_iff.1 happly
        rcases List.mem_cons.1 hv with heq | hlater
        · obtain ⟨rfl, rfl⟩ := Prod.mk.inj heq
          exact ⟨x, hcheck⟩
        · exact ih.1 ⟨c', hrest⟩ key v hlater
      · obtain ⟨x, hcheck⟩ := hall other w List.mem_cons_self
        obtain ⟨c', hc'⟩ := ih.2 fun key v hv => hall key v (List.mem_cons_of_mem _ hv)
        have happly : apply s c other w = .ok (c.set other x) := apply_eq_ok_iff.2 ⟨x, hcheck, rfl⟩
        refine ⟨c', ?_⟩
        simp only [happly]
        exact hc'

/-! ### Entries as settings -/

theorem keyOf?_eq_some {k : Yaml.Value} {key : Key} (h : keyOf? k = some key) :
    k = .text key.name := by
  unfold keyOf? at h
  split at h
  · next name =>
    have hname := List.find?_some h
    rw [beq_iff_eq.1 hname]
  · cases h

theorem keyOf?_name (key : Key) : keyOf? (.text key.name) = some key := Key.ofName?_name key

theorem known_cons (k v : Yaml.Value) : known ((k, v) :: entries) =
    match keyOf? k with
    | some key => (key, v) :: known entries
    | none => known entries := by
  cases hkey : keyOf? k <;> simp [known, hkey]

theorem mem_known {v : Yaml.Value} : (key, v) ∈ known entries ↔ (.text key.name, v) ∈ entries := by
  refine ⟨fun hmem => ?_, fun hmem => ?_⟩
  · obtain ⟨⟨k, w⟩, hentry, hkey⟩ := List.mem_filterMap.1 hmem
    obtain ⟨other, hof, heq⟩ := Option.map_eq_some_iff.1 hkey
    obtain ⟨rfl, rfl⟩ := Prod.mk.inj heq
    exact keyOf?_eq_some hof ▸ hentry
  · exact List.mem_filterMap.2 ⟨_, hmem, congrArg (Option.map (·, v)) (keyOf?_name key)⟩

/-- No setting is given twice. -/
theorem nodup_known (honce : Yaml.TextsOnce (entries.map (·.1))) :
    ((known entries).map Prod.fst).Nodup := by
  induction entries with
  | nil => exact List.nodup_nil
  | cons e rest ih =>
      obtain ⟨k, v⟩ := e
      obtain ⟨hfirst, hothers⟩ := List.pairwise_cons.1 honce
      rw [known_cons]
      cases hkey : keyOf? k with
      | none => exact ih hothers
      | some key =>
          refine List.nodup_cons.2 ⟨fun hmem => ?_, ih hothers⟩
          obtain ⟨⟨key', w⟩, hknown, rfl⟩ := List.mem_map.1 hmem
          exact hfirst _ (List.mem_map_of_mem (mem_known.1 hknown)) _ (keyOf?_eq_some hkey) rfl

theorem strangers_eq_nil_iff :
    strangers entries = [] ↔ ∀ e ∈ entries, ∃ key : Key, e.1 = .text key.name := by
  rw [strangers, List.filter_eq_nil_iff, List.forall_mem_map]
  refine forall₂_congr fun e _ => ?_
  rw [Bool.not_eq_true, Option.isNone_eq_false_iff, Option.isSome_iff_exists]
  refine exists_congr fun key => ⟨keyOf?_eq_some, fun heq => ?_⟩
  rw [heq, keyOf?_name]

/-- The entries of a configuration that was put together are settings. -/
theorem ofEntries_eq_ok {entries : ConfigFile.Entries} (h : ofEntries s entries = .ok c) :
    build s (known entries) = .ok c := by
  unfold ofEntries at h
  split at h
  · cases h
  · exact h

theorem ofEntries_eq_ok_iff : ofEntries s entries = .ok c ↔
    strangers entries = [] ∧ build s (known entries) = .ok c := by
  refine ⟨fun h => ⟨?_, ofEntries_eq_ok h⟩, fun ⟨hstrangers, hbuild⟩ => ?_⟩
  · unfold ofEntries at h
    split at h
    · cases h
    · next hnone => exact hnone
  · have hnone : (entries.map (·.1)).filter (fun k => (keyOf? k).isNone) = [] := hstrangers
    rw [ofEntries, hnone]
    exact hbuild

/-! ### Configurations of entries -/

/-- **What the settings of a configuration are** where values are written for some of them: what is
written is checked, and the others are the defaults. -/
def Layered (s : Site) (written? : Key → Option Yaml.Value) (c : Config) : Prop :=
  ∀ key,
    (∀ v, written? key = some v →
        ∃ x, key.rule.check s.home? key.name v = .ok x ∧ c.setting? key = some x) ∧
      (written? key = none → c.setting? key = (Config.standard s).setting? key)

/-- There is only one such configuration. -/
theorem Layered.unique {written? : Key → Option Yaml.Value} (h : Layered s written? c)
    (h' : Layered s written? c') : c = c' := by
  have hsettings (key : Key) : ∃ x, c.setting? key = some x ∧ c'.setting? key = some x := by
    obtain ⟨hgiven, hleft⟩ := h key
    obtain ⟨hgiven', hleft'⟩ := h' key
    cases hwritten : written? key with
    | none =>
        obtain ⟨x, hx, -⟩ := Config.fits_standard s key
        exact ⟨x, (hleft hwritten).trans hx, (hleft' hwritten).trans hx⟩
    | some v =>
        obtain ⟨x, hcheck, hx⟩ := hgiven v hwritten
        obtain ⟨x', hcheck', hx'⟩ := hgiven' v hwritten
        obtain rfl := Except.ok.inj (hcheck.symm.trans hcheck')
        exact ⟨x, hx, hx'⟩
  refine Config.eq_of_setting? (fun key => ?_) fun key => ?_
  · obtain ⟨x, hx, -⟩ := hsettings key
    exact hx ▸ rfl
  · obtain ⟨x, hx, hx'⟩ := hsettings key
    exact hx.trans hx'.symm

section Entries

variable (honce : Yaml.TextsOnce (entries.map (·.1)))
include honce

/-- **Entries make a configuration** where all keys are settings and the value of each is accepted.
-/
theorem ofEntries_succeeds_iff : (∃ c, ofEntries s entries = .ok c) ↔ strangers entries = [] ∧
    ∀ (key : Key) (v : Yaml.Value), Yaml.lookupText key.name entries = some v →
      ∃ x, key.rule.check s.home? key.name v = .ok x := by
  have hbuild : (∃ c, build s (known entries) = .ok c) ↔ _ := foldlM_succeeds_iff
  simp only [ofEntries_eq_ok_iff, exists_and_left, hbuild, mem_known,
    Yaml.lookupText_eq_some_iff honce]

/-- **The configuration of entries**: each setting is what its entry says, or else the default. -/
theorem ofEntries_eq_ok_iff_layered : ofEntries s entries = .ok c ↔ strangers entries = [] ∧
    Layered s (fun key => Yaml.lookupText key.name entries) c := by
  have hlayered {c : Config} (h : ofEntries s entries = .ok c) :
      Layered s (fun key => Yaml.lookupText key.name entries) c := by
    intro key
    obtain ⟨hgiven, hleft⟩ := foldlM_setting? (nodup_known honce) (ofEntries_eq_ok h) key
    refine ⟨fun v hv => hgiven v ?_, fun hnone => hleft fun v hv => ?_⟩
    · exact mem_known.2 ((Yaml.lookupText_eq_some_iff honce).1 hv)
    · have hsome := (Yaml.lookupText_eq_some_iff honce).2 (mem_known.1 hv)
      exact Option.some_ne_none v (hsome.symm.trans hnone)
  refine ⟨fun h => ⟨(ofEntries_eq_ok_iff.1 h).1, hlayered h⟩, fun ⟨hstrangers, hc⟩ => ?_⟩
  -- some configuration comes of the entries, and there is only one that they say
  obtain ⟨c', hc'⟩ := (ofEntries_succeeds_iff honce).2 ⟨hstrangers, fun key v hv => by
    obtain ⟨x, hcheck, -⟩ := (hc key).1 v hv
    exact ⟨x, hcheck⟩⟩
  rwa [hc.unique (hlayered hc')]

end Entries

/-! ### Variables over a file -/

/-- What a variable says of a setting, unless it is unset or empty. -/
def overriding? (h : Host) (key : Key) : Option String := key.ownVariable?.bind h.nonEmpty?

/-- **What is written for a setting**: what its variable says, or else what the entries of the file
say. -/
def written? (h : Host) (entries : ConfigFile.Entries) (key : Key) : Option Yaml.Value :=
  ((overriding? h key).map .text).or (Yaml.lookupText key.name entries)

/-- **The same entries but for what lies under a variable.** -/
def SameUnder (h : Host) : ConfigFile.Entries → ConfigFile.Entries → Prop :=
  Yaml.AgreeBut fun k => ∃ key, (overriding? h key).isSome ∧ k = .text key.name

/-- The variables of a table that are set and not empty, with their values. -/
def activeOf (h : Host) (table : List (String × Key)) : List (String × Key × String) :=
  table.filterMap fun (name, key) => (h.nonEmpty? name).map fun v => (name, key, v)

theorem override_cons (h : Host) (name : String) (other : Key) (table : List (String × Key)) :
    override (activeOf h ((name, other) :: table)) entries =
      override (activeOf h table)
        (match h.nonEmpty? name with
          | some v => Yaml.insert (.text other.name) (.text v) entries
          | none => entries) := by
  cases hname : h.nonEmpty? name <;> simp [activeOf, override, hname]

/-- **The variables of a table over entries**: a setting is what its variable says, or else what it
was. -/
theorem lookupText_override {table : List (String × Key)} (honce : (table.map Prod.snd).Nodup) :
    Yaml.lookupText key.name (override (activeOf h table) entries) =
      ((((table.find? fun o => o.2 = key).map Prod.fst).bind h.nonEmpty?).map .text).or
        (Yaml.lookupText key.name entries) := by
  induction table generalizing entries with
  | nil => rfl
  | cons o rest ih =>
      obtain ⟨name, other⟩ := o
      obtain ⟨hnew, hothers⟩ := List.nodup_cons.1 honce
      rw [override_cons, ih hothers, List.find?_cons]
      by_cases hkey : other = key
      · subst hkey
        -- the rest of the table has no variable for the same setting
        have hnone : rest.find? (fun o => decide (o.2 = other)) = none :=
          List.find?_eq_none.2 fun o ho heq => hnew (List.mem_map.2 ⟨o, ho, of_decide_eq_true heq⟩)
        rw [hnone, decide_eq_true rfl]
        cases hname : h.nonEmpty? name <;> simp [hname, Yaml.lookupText_insert]
      · have hstay (v : String) : Yaml.lookupText key.name
            (Yaml.insert (.text other.name) (.text v) entries) = Yaml.lookupText key.name entries := by
          rw [Yaml.lookupText_insert, if_neg fun heq => hkey (Key.name_inj.1 heq).symm]
        rw [decide_eq_false hkey]
        cases h.nonEmpty? name <;> simp [hstay]

/-- **What is left of the layers** is what is written. -/
theorem lookupText_layers : Yaml.lookupText key.name (override (activeOverrides h) entries) =
    written? h entries key := by
  have honce : (overrides.map Prod.snd).Nodup := by decide
  rw [written?, overriding?, Key.ownVariable?_eq, ← lookupText_override honce]
  rfl

theorem textsOnce_override (honce : Yaml.TextsOnce (entries.map (·.1)))
    (active : List (String × Key × String)) :
    Yaml.TextsOnce ((override active entries).map (·.1)) := by
  induction active generalizing entries with
  | nil => exact honce
  | cons a rest ih => exact ih honce.insert

theorem strangers_insert (key : Key) (v : Yaml.Value) (entries : ConfigFile.Entries) :
    strangers (Yaml.insert (.text key.name) v entries) = strangers entries := by
  unfold strangers
  rcases Yaml.keys_insert key.name v entries with hkeys | ⟨hkeys, -⟩
  · rw [hkeys]
  · rw [hkeys, List.filter_append]
    simp [keyOf?_name]

/-- Variables bring no keys that are no settings. -/
theorem strangers_override (active : List (String × Key × String)) :
    strangers (override active entries) = strangers entries := by
  induction active generalizing entries with
  | nil => rfl
  | cons a rest ih => exact ih.trans (strangers_insert a.2.1 (.text a.2.2) entries)

theorem override_agreeBut {P : Yaml.Value → Prop} (honce : Yaml.TextsOnce (entries.map (·.1)))
    (hagree : Yaml.AgreeBut P entries entries') (active : List (String × Key × String)) :
    Yaml.AgreeBut (fun k => P k ∧ ∀ a ∈ active, k ≠ .text a.2.1.name)
      (override active entries) (override active entries') := by
  induction active generalizing P entries entries' with
  | nil => exact hagree.mono fun _ _ hP => ⟨hP, nofun⟩
  | cons a rest ih =>
      refine (ih honce.insert (hagree.insert honce)).mono fun e _ h => ⟨h.1.1, ?_⟩
      exact List.forall_mem_cons.2 ⟨h.1.2, h.2⟩

/-- A variable that is set and not empty is laid over the entries. -/
theorem mem_activeOverrides {v : String} (hv : overriding? h key = some v) :
    ∃ name, (name, key, v) ∈ activeOverrides h := by
  obtain ⟨name, hname, hset⟩ := Option.bind_eq_some_iff.1 hv
  rw [Key.ownVariable?_eq] at hname
  obtain ⟨o, hfind, rfl⟩ := Option.map_eq_some_iff.1 hname
  have hkey : o.2 = key := by simpa using List.find?_some hfind
  refine ⟨o.1, List.mem_filterMap.2 ⟨o, List.mem_of_find?_eq_some hfind, ?_⟩⟩
  simp [hset, hkey]

/-- **What lies under a variable does not show.** -/
theorem override_sameUnder (honce : Yaml.TextsOnce (entries.map (·.1)))
    (hsame : SameUnder h entries entries') :
    override (activeOverrides h) entries = override (activeOverrides h) entries' := by
  refine ((override_agreeBut honce hsame _).mono fun e _ ⟨⟨key, hset, hkey⟩, hleft⟩ => ?_).eq
  obtain ⟨v, hv⟩ := Option.isSome_iff_exists.1 hset
  obtain ⟨name, hactive⟩ := mem_activeOverrides hv
  exact hleft _ hactive hkey

/-! ### Loading -/

theorem textsOnce_of_read {d : Disk} {file : Option Path}
    (hentries : fileOn d file >>= entriesOn d = .ok entries) :
    Yaml.TextsOnce (entries.map (·.1)) := by
  obtain ⟨found, -, hfound⟩ := decided_bind hentries
  exact ConfigFile.textsOnce_entriesOn hfound

/-- What a configuration that is loaded was made of. -/
theorem layered_of_load {file : Option Path} {w : World}
    (hload : ((load s h file).perform w).1 = .ok c) :
    ∃ entries, fileOn w.disk file >>= entriesOn w.disk = .ok entries ∧
      Yaml.TextsOnce (entries.map (·.1)) ∧ Layered s (written? h entries) c := by
  rw [load_decides] at hload
  obtain ⟨entries, hentries, hof⟩ := decided_bind hload
  have honce := textsOnce_of_read hentries
  have hoverride := textsOnce_override honce (activeOverrides h)
  have hlayered := ((ofEntries_eq_ok_iff_layered hoverride).1 hof).2
  simp only [lookupText_layers] at hlayered
  exact ⟨entries, hentries, honce, hlayered⟩

/-- **The configuration of a run.**  The entries of the file are read, and then
* a configuration comes of them exactly if all keys are settings and whatever is written for a
  setting is accepted; what is written under a variable is not looked at;
* it has for each setting what the value that is written is accepted as, or else the default, and no
  other configuration is loaded;
* other entries under the variables make no difference, whether they are accepted or not. -/
theorem load_layers {file : Option Path} {w : World}
    (hentries : fileOn w.disk file >>= entriesOn w.disk = .ok entries) :
    ((∃ c, ((load s h file).perform w).1 = .ok c) ↔
        (∀ e ∈ entries, ∃ key : Key, e.1 = .text key.name) ∧
          ∀ (key : Key) (v : Yaml.Value), written? h entries key = some v →
            ∃ x, key.rule.check s.home? key.name v = .ok x) ∧
      (∀ c, ((load s h file).perform w).1 = .ok c ↔
        (∀ e ∈ entries, ∃ key : Key, e.1 = .text key.name) ∧ Layered s (written? h entries) c) ∧
      ∀ file' (w' : World) entries', fileOn w'.disk file' >>= entriesOn w'.disk = .ok entries' →
        SameUnder h entries entries' →
          ((load s h file').perform w').1 = ((load s h file).perform w).1 := by
  have hload : ((load s h file).perform w).1 = ofEntries s (override (activeOverrides h) entries) := by
    rw [load_decides, hentries]
    rfl
  have honce := textsOnce_of_read hentries
  have hoverride := textsOnce_override honce (activeOverrides h)
  refine ⟨?_, fun c => ?_, fun file' w' entries' hentries' hsame => ?_⟩
  · simp only [hload, ofEntries_succeeds_iff hoverride, strangers_override, strangers_eq_nil_iff,
      lookupText_layers]
  · simp only [hload, ofEntries_eq_ok_iff_layered hoverride, strangers_override, strangers_eq_nil_iff,
      lookupText_layers]
  · rw [load_decides, hentries', hload, override_sameUnder honce hsame]
    rfl

/-- The entries are these texts. -/
def areTexts : ConfigFile.Entries → List (String × String) → Bool
  | [], [] => true
  | (k, v) :: entries, (name, text) :: texts =>
    k.isSameKey (.text name) && v.isSameKey (.text text) && areTexts entries texts
  | _, _ => false

theorem eq_of_areTexts {texts : List (String × String)} (h : areTexts entries texts = true) :
    entries = texts.map fun t => (.text t.1, .text t.2) := by
  induction entries generalizing texts with
  | nil =>
      cases texts with
      | nil => rfl
      | cons t texts => cases h
  | cons e rest ih =>
      cases texts with
      | nil => cases h
      | cons t texts =>
          simp only [areTexts, Bool.and_eq_true, Yaml.isSameKey_text_iff] at h
          obtain ⟨⟨hkey, hvalue⟩, hrest⟩ := h
          exact List.cons_eq_cons.2 ⟨Prod.ext hkey hvalue, ih hrest⟩

theorem read_of_areTexts {r : Except Failure ConfigFile.Entries} {texts : List (String × String)}
    (h : r.toOption.any (areTexts · texts) = true) :
    r = .ok (texts.map fun t => (.text t.1, .text t.2)) := by
  cases r with
  | error f => cases h
  | ok entries => exact congrArg Except.ok (eq_of_areTexts h)

/-- A version that is not accepted and one that is, under a variable for the version; a variable
that is empty says nothing. -/
theorem load_layers_version :
    let host : Host := ⟨"linux", "x86_64", [("BINFETCH_VERSION", "v2"), ("BINFETCH_BIN_DIR", "")]⟩
    let bare : Host := ⟨"linux", "x86_64", []⟩
    let entries (version : String) : ConfigFile.Entries :=
      [(.text "version", .text version), (.text "repo", .text "a/b")]
    let run (h : Host) (version : String) := ((load CommandLine.plainSite h none).perform
      (World.fresh (CommandLine.configuredDisk s!"version: '{version}'\nrepo: 'a/b'\n") [])).1
    run host "v1" = run host "" ∧ (run bare "").isOk = false ∧
      ∃ c, run host "" = .ok c ∧ Layered CommandLine.plainSite (written? host (entries "")) c ∧
        c.version = "v2" ∧ c.repo = "a/b" ∧ c.binDir = CommandLine.plainSite.binDirectory := by
  intro host bare entries run
  let disk (version : String) := CommandLine.configuredDisk s!"version: '{version}'\nrepo: 'a/b'\n"
  have hread (version : String)
      (h : (fileOn (disk version) none >>= entriesOn (disk version)).toOption.any
        (areTexts · [("version", version), ("repo", "a/b")]) = true) :
      fileOn (disk version) none >>= entriesOn (disk version) = .ok (entries version) :=
    read_of_areTexts h
  have hsame : SameUnder host (entries "") (entries "v1") :=
    .cons ⟨rfl, .inr ⟨.version, by decide, rfl⟩⟩ (.cons ⟨rfl, .inl rfl⟩ .nil)
  have hempty : fileOn (disk "") none >>= entriesOn (disk "") = .ok (entries "") :=
    hread "" (by decide +kernel)
  obtain ⟨-, hsettings, hunder⟩ := load_layers (s := CommandLine.plainSite) (h := host)
    (w := World.fresh (disk "") []) hempty
  have hc : run host "" =
      .ok { Config.standard CommandLine.plainSite with version := "v2", repo := "a/b" } := by
    decide +kernel
  exact ⟨hunder none _ _ (hread "v1" (by decide +kernel)) hsame, by decide +kernel, _, hc,
    ((hsettings _).1 hc).2, rfl, rfl, rfl⟩

end Settings

end ReleaseFetch
