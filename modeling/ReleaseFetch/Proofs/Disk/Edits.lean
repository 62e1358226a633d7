/-
**Changes to a disk without links.**

Every change that a run makes to a disk without links, the removal of a whole tree apart, puts a
file at an open location, removes a file, or makes a directory.  Such changes keep the disk plain
and its directories in place, so they can be followed one after the other through the view alone.

Main definitions:

* `ReleaseFetch.Disk.Edited` — what such changes leave, when files change at some locations only.

Main results:

* `ReleaseFetch.Disk.Edited.trans` — one change after the other;
* `ReleaseFetch.Disk.makeDirectory_ok`, `ReleaseFetch.Disk.unlink_ok`,
  `ReleaseFetch.Disk.setMode_ok`, `ReleaseFetch.Disk.createNew_ok`, `ReleaseFetch.Disk.write_ok`,
  `ReleaseFetch.Disk.copyFile_ok`, `ReleaseFetch.Disk.replace_ok` — what each operation did when it
  succeeded.
-/

import ReleaseFetch.Proofs.Disk.Plain

set_option autoImplicit false

namespace ReleaseFetch.Disk

/-! ### Single changes -/

theorem Open.get?_put {d : Disk} {l : Location} (h : d.Open l) (m : Location) (e : Entry) :
    (d.put l e).get? m = if m = l then some e else d.get? m :=
  Disk.get?_put d l m e h.ne_nil

theorem Plain.put {d : Disk} (hd : d.Plain) {l : Location} (hl : d.Open l) {e : Entry}
    (he : ∀ t, e ≠ .link t) : (d.put l e).Plain := by
  obtain ⟨n, m, hnm, hn, hm⟩ := hl.parent
  refine ⟨⟨?_, ?_⟩, ?_⟩
  · intro k x hx
    rw [hl.get?_put] at hx ⊢
    have hxdir : d.get? x = some .directory := by
      split at hx
      · next hkx =>
        obtain ⟨-, rfl⟩ := List.cons.inj (hkx.trans hnm)
        exact hm
      · exact hd.rooted hx
    -- nothing lies below an open location, so the directory above is another one
    have hxl : x ≠ l := fun hxl => hl.vacant (hxl ▸ hxdir)
    rw [if_neg hxl, hxdir]
  · intro k x hx
    rw [hl.get?_put] at hx
    split at hx
    · next hkx =>
      obtain ⟨rfl, -⟩ := List.cons.inj (hkx.trans hnm)
      exact hn
    · exact hd.named hx
  · intro x t hx
    rw [hl.get?_put] at hx
    split at hx
    · exact he t (Option.some.inj hx)
    · exact hd.linkless x t hx

theorem Plain.erase {d : Disk} (hd : d.Plain) {l : Location} (hl : d.get? l ≠ some .directory)
    (hne : l ≠ []) : (d.erase l).Plain := by
  have hother : ∀ {x : Location}, (d.erase l).get? x ≠ none → d.get? x ≠ none := by
    intro x hx
    rw [get?_erase d l x hne] at hx
    split at hx
    · exact absurd rfl hx
    · exact hx
  refine ⟨⟨?_, ?_⟩, ?_⟩
  · intro k x hx
    have hxdir := hd.rooted (hother hx)
    have hxl : x ≠ l := fun hxl => hl (hxl ▸ hxdir)
    rw [get?_erase d l x hne, if_neg hxl, hxdir]
  · intro k x hx
    exact hd.named (hother hx)
  · intro x t hx
    rw [get?_erase d l x hne] at hx
    split at hx
    · cases hx
    · exact hd.linkless x t hx

theorem Open.erase {d : Disk} {l m : Location} (h : d.Open l) (hm : d.get? m ≠ some .directory)
    (hne : m ≠ []) : (d.erase m).Open l := by
  obtain ⟨n, k, hnk, hn, hk⟩ := h.parent
  refine ⟨⟨n, k, hnk, hn, ?_⟩, ?_⟩
  · have hkm : k ≠ m := fun hkm => hm (hkm ▸ hk)
    rw [get?_erase d m k hne, if_neg hkm, hk]
  · rw [get?_erase d m l hne]
    split
    · simp
    · exact h.vacant

/-! ### Changes in a row -/

/-- The second disk has grown out of the first by changes to files at the locations of `S` and by
new directories. -/
structure Edited (S : Location → Prop) (d e : Disk) : Prop extends Within d e where
  plain : e.Plain
  kept : ∀ l, ¬S l → e.get? l = d.get? l ∨ d.get? l = none ∧ e.get? l = some .directory

namespace Edited

variable {S T : Location → Prop} {d e f : Disk}

theorem refl (hd : d.Plain) : Edited S d d := ⟨Within.refl d, hd, fun _ _ => .inl rfl⟩

/-- **One change after the other.** -/
theorem trans (h : Edited S d e) (h' : Edited S e f) : Edited S d f := by
  refine ⟨h.toWithin.trans h'.toWithin, h'.plain, ?_⟩
  intro l hl
  rcases h.kept l hl with h₁ | ⟨h₁, h₂⟩
  · rcases h'.kept l hl with h₃ | ⟨h₃, h₄⟩
    · exact .inl (h₃.trans h₁)
    · exact .inr ⟨h₁ ▸ h₃, h₄⟩
  · exact .inr ⟨h₁, h'.directory h₂⟩

theorem mono (h : Edited S d e) (hS : ∀ l, S l → T l) : Edited T d e :=
  ⟨h.toWithin, h.plain, fun l hl => h.kept l fun hs => hl (hS l hs)⟩

/-- A location that looks as before need not be counted among the changed ones. -/
theorem forget (h : Edited S d e) (hS : ∀ l, S l → T l ∨ e.get? l = d.get? l) :
    Edited T d e := by
  refine ⟨h.toWithin, h.plain, fun l hl => ?_⟩
  by_cases hs : S l
  · exact .inl ((hS l hs).resolve_left hl)
  · exact h.kept l hs

/-- A file away from the changes stays as it was. -/
theorem file_iff (h : Edited S d e) {l : Location} (hl : ¬S l) (b : List UInt8) (m : Nat) :
    e.get? l = some (.file b m) ↔ d.get? l = some (.file b m) := by
  rcases h.kept l hl with heq | ⟨h₁, h₂⟩
  · rw [heq]
  · simp [h₁, h₂]

theorem put (hd : d.Plain) {l : Location} (hl : d.Open l) {x : Entry} (hx : ∀ t, x ≠ .link t)
    (hS : S l ∨ d.get? l = none ∧ x = .directory) : Edited S d (d.put l x) := by
  refine ⟨⟨rfl, ?_⟩, hd.put hl hx, ?_⟩
  · intro m hm
    have hml : m ≠ l := fun hml => hl.vacant (hml ▸ hm)
    rw [hl.get?_put, if_neg hml, hm]
  · intro m hm
    rw [hl.get?_put]
    by_cases hml : m = l
    · subst hml
      rcases hS with hS | ⟨hnone, rfl⟩
      · exact absurd hS hm
      · exact .inr ⟨hnone, if_pos rfl⟩
    · exact .inl (if_neg hml)

theorem erase (hd : d.Plain) {l : Location} (hl : d.get? l ≠ some .directory) (hne : l ≠ [])
    (hS : S l) : Edited S d (d.erase l) := by
  refine ⟨⟨rfl, ?_⟩, hd.erase hl hne, ?_⟩
  · intro m hm
    have hml : m ≠ l := fun hml => hl (hml ▸ hm)
    rw [get?_erase d l m hne, if_neg hml, hm]
  · intro m hm
    have hml : m ≠ l := fun hml => hm (hml ▸ hS)
    exact .inl (by rw [get?_erase d l m hne, if_neg hml])

/-- A file that is moved changes the two places. -/
theorem replace (hd : d.Plain) {l m : Location} (hl : d.Open l) (hm : d.Open m)
    (b : List UInt8) (mode : Nat) :
    Edited (fun k => k = m ∨ k = l) d ((d.erase l).put m (.file b mode)) := by
  have herase : Edited (fun k => k = m ∨ k = l) d (d.erase l) :=
    erase hd hl.vacant hl.ne_nil (.inr rfl)
  exact herase.trans (put herase.plain (hm.erase hl.vacant hl.ne_nil) (by simp) (.inl (.inl rfl)))

end Edited

/-! ### Operations -/

/-- What an operation finds that looks at a path. -/
theorem find_ok {d : Disk} (hd : d.Plain) {follow : Bool} {p : Path} {place : Place}
    (h : d.find follow p = .ok place) :
    hasNul p = false ∧ d.locate follow p = .ok place ∧ place = ⟨d.locationOf p, d.seen p⟩ := by
  unfold find at h
  split at h
  · cases h
  · next hnul =>
    split at h
    · next hloc =>
      obtain rfl := Except.ok.inj h
      exact ⟨by simpa using hnul, hloc, locate_eq hd hloc⟩
    · cases h

/-- What an operation finds once, it finds on every disk that has grown out of the first. -/
theorem Within.find {d e : Disk} (h : d.Within e) (hd : d.Plain) (he : e.Plain)
    {follow follow' : Bool} {p : Path} {place : Place} (hp : d.find follow p = .ok place) :
    e.find follow' p = .ok ⟨d.locationOf p, e.seen p⟩ := by
  obtain ⟨hnul, hloc, -⟩ := find_ok hd hp
  rw [Disk.find, hnul, h.locate hd he hloc]
  rfl

/-- A path that an operation may find shows nothing but its location, if it shows no directory. -/
theorem find_open {d : Disk} (hd : d.Plain) {follow : Bool} {p : Path} {place : Place}
    (h : d.find follow p = .ok place) (hplace : d.seen p ≠ some .directory) :
    d.Open (d.locationOf p) ∧ d.seen p = d.get? (d.locationOf p) ∧
      ∃ n, p.names.getLast? = some n ∧ IsName n := by
  obtain ⟨-, hloc, rfl⟩ := find_ok hd h
  obtain ⟨hopen, hname⟩ := locate_open hd hloc hplace
  exact ⟨hopen, (seen_of_ne_directory hplace).2, hname⟩

/-- Where a path finds nothing, there is room. -/
theorem find_vacant {d : Disk} (hd : d.Plain) {follow : Bool} {p : Path} {place : Place}
    (h : d.find follow p = .ok place) (hnone : place.entry = none) :
    place.location = d.locationOf p ∧ d.Open (d.locationOf p) ∧
      d.get? (d.locationOf p) = none ∧ p.names ≠ [] := by
  obtain ⟨-, -, rfl⟩ := find_ok hd h
  change d.seen p = none at hnone
  obtain ⟨hopen, hseen, -⟩ := find_open hd h (by simp [hnone])
  exact ⟨rfl, hopen, hseen ▸ hnone, (seen_of_ne_directory (d := d) (by simp [hnone])).1⟩

theorem makeDirectory_ok {d e : Disk} (hd : d.Plain) {p : Path} (h : d.makeDirectory p = .ok e) :
    d.Open (d.locationOf p) ∧ d.get? (d.locationOf p) = none ∧
      e = d.put (d.locationOf p) .directory ∧ ∃ place, d.find false p = .ok place := by
  unfold makeDirectory at h
  split at h
  · cases h
  · next place hfind =>
    split at h
    · next hnone =>
      obtain ⟨hloc, hopen, hget, -⟩ := find_vacant hd hfind hnone
      obtain rfl := Except.ok.inj h
      exact ⟨hopen, hget, by rw [hloc], _, hfind⟩
    · cases h

theorem unlink_ok {d e : Disk} (hd : d.Plain) {p : Path} (h : d.unlink p = .ok e) :
    d.Open (d.locationOf p) ∧ e = d.erase (d.locationOf p) := by
  unfold unlink at h
  split at h
  · cases h
  · next place hfind =>
    obtain ⟨-, -, rfl⟩ := find_ok hd hfind
    split at h
    · cases h
    · cases h
    · next x hne hx =>
      obtain ⟨hopen, -, -⟩ := find_open hd hfind fun hdir =>
        hne (Option.some.inj (hx.symm.trans hdir))
      exact ⟨hopen, (Except.ok.inj h).symm⟩

/-- A path that leads somewhere shows what it leads to. -/
theorem status_ok {d : Disk} (hd : d.Plain) {p : Path} {place : Place}
    (h : d.status p = .ok place) :
    d.find true p = .ok place ∧ place = ⟨d.locationOf p, d.seen p⟩ ∧ d.seen p ≠ none := by
  unfold status at h
  split at h
  · cases h
  · next place' hfind =>
    split at h
    · next x hx =>
      obtain rfl := Except.ok.inj h
      obtain ⟨-, -, rfl⟩ := find_ok hd hfind
      refine ⟨hfind, rfl, ?_⟩
      change d.seen p = some x at hx
      simp [hx]
    · cases h

/-- The file that a path shows stands at its location. -/
theorem status_file {d : Disk} (hd : d.Plain) {p : Path} {place : Place} {b : List UInt8} {m : Nat}
    (h : d.status p = .ok place) (hfile : place.entry = some (.file b m)) :
    place.location = d.locationOf p ∧ d.Open (d.locationOf p) ∧
      d.get? (d.locationOf p) = some (.file b m) := by
  obtain ⟨hfind, rfl, -⟩ := status_ok hd h
  change d.seen p = _ at hfile
  obtain ⟨hopen, hseen, -⟩ := find_open hd hfind (by simp [hfile])
  exact ⟨rfl, hopen, hseen ▸ hfile⟩

theorem setMode_ok {d e : Disk} (hd : d.Plain) {p : Path} {mode : Nat}
    (h : d.setMode p mode = .ok e) :
    e = d ∧ d.seen p = some .directory ∨
      ∃ b m, d.Open (d.locationOf p) ∧ d.get? (d.locationOf p) = some (.file b m) ∧
        e = d.put (d.locationOf p) (.file b mode) := by
  unfold setMode at h
  split at h
  · cases h
  · next place hstatus =>
    obtain ⟨hfind, heq, hsome⟩ := status_ok hd hstatus
    split at h
    · next b m hfile =>
      obtain ⟨hloc, hopen, hget⟩ := status_file hd hstatus hfile
      obtain rfl := Except.ok.inj h
      exact .inr ⟨b, m, hopen, hget, by rw [hloc]⟩
    · next hnofile =>
      obtain rfl := Except.ok.inj h
      by_cases hdir : d.seen p = some .directory
      · exact .inl ⟨rfl, hdir⟩
      · obtain ⟨-, hseen, -⟩ := find_open hd hfind hdir
        rcases hd.entry_cases (d.locationOf p) with hx | hx | ⟨b, m, hx⟩
        · exact absurd (hseen.trans hx) hsome
        · exact absurd (hseen.trans hx) hdir
        · exact absurd (by rw [heq]; exact hseen.trans hx) (hnofile b m)

theorem createNew_ok {d e : Disk} (hd : d.Plain) {p : Path} (h : d.createNew p = .ok (some e)) :
    d.Open (d.locationOf p) ∧ d.get? (d.locationOf p) = none ∧ p.names ≠ [] ∧
      e = d.put (d.locationOf p) (.file [] privateMode) ∧
      ∃ place, d.find false p = .ok place := by
  unfold createNew at h
  split at h
  · cases h
  · next place hfind =>
    split at h
    · next hnone =>
      obtain ⟨hloc, hopen, hget, hp⟩ := find_vacant hd hfind hnone
      obtain rfl := Option.some.inj (Except.ok.inj h)
      exact ⟨hopen, hget, hp, by rw [hloc], _, hfind⟩
    · cases Except.ok.inj h

theorem read_ok {d : Disk} (hd : d.Plain) {p : Path} {b : List UInt8} (h : d.read p = .ok b) :
    d.Open (d.locationOf p) ∧ ∃ m, d.get? (d.locationOf p) = some (.file b m) := by
  unfold read at h
  split at h
  · cases h
  · next place hfind =>
    obtain ⟨-, -, rfl⟩ := find_ok hd hfind
    split at h
    · next b' m hfile =>
      obtain rfl := Except.ok.inj h
      change d.seen p = _ at hfile
      obtain ⟨hopen, hseen, -⟩ := find_open hd hfind (by simp [hfile])
      exact ⟨hopen, m, hseen ▸ hfile⟩
    · cases h
    · cases h

/-- A file that is written keeps its mode; a new one has the usual mode. -/
theorem write_ok {d e : Disk} (hd : d.Plain) {p : Path} {b : List UInt8}
    (h : d.write p b = .ok e) :
    ∃ m, d.Open (d.locationOf p) ∧ e = d.put (d.locationOf p) (.file b m) ∧
      ∃ n, p.names.getLast? = some n ∧ IsName n := by
  unfold write at h
  split at h
  · cases h
  · next place hfind =>
    obtain ⟨-, -, rfl⟩ := find_ok hd hfind
    split at h
    · next hnone =>
      change d.seen p = none at hnone
      obtain ⟨hopen, -, hname⟩ := find_open hd hfind (by simp [hnone])
      exact ⟨fileMode, hopen, (Except.ok.inj h).symm, hname⟩
    · next b' m hfile =>
      change d.seen p = _ at hfile
      obtain ⟨hopen, -, hname⟩ := find_open hd hfind (by simp [hfile])
      exact ⟨m, hopen, (Except.ok.inj h).symm, hname⟩
    · cases h

theorem copyFile_ok {d e : Disk} {p q : Path} (h : d.copyFile p q = .ok e) :
    d.isSame p q = false ∧ ∃ b, d.read p = .ok b ∧ d.write q b = .ok e := by
  unfold copyFile at h
  split at h
  · cases h
  · split at h
    · cases h
    · next hsame =>
      split at h
      · cases h
      · next b hread => exact ⟨by simpa using hsame, b, hread, h⟩

/-- A file that is moved leaves its place and stands at the other. -/
theorem replace_ok {d e : Disk} (hd : d.Plain) {p q : Path} (h : d.replace p q = .ok e)
    {b : List UInt8} {m : Nat} (hfile : d.get? (d.locationOf p) = some (.file b m))
    (hp : p.names ≠ []) :
    d.Open (d.locationOf q) ∧
      e = (d.erase (d.locationOf p)).put (d.locationOf q) (.file b m) := by
  unfold replace at h
  split at h
  · cases h
  · simp only at h
    split at h
    · cases h
    · cases h
    · next old new hold hnew =>
      obtain rfl := locate_eq hd hold
      obtain rfl := locate_eq hd hnew
      split at h
      · cases h
      · have hseen : d.seen p = some (.file b m) := by rw [seen, if_neg hp, hfile]
        simp only [hseen] at h
        split at h
        · cases h
        · next hdir =>
          obtain ⟨hopen, -⟩ := locate_open hd hnew (by simpa using hdir)
          exact ⟨hopen, (Except.ok.inj h).symm⟩

/-- What is moved somewhere can be found there. -/
theorem replace_found {d e : Disk} {p q : Path} (h : d.replace p q = .ok e) :
    q.names ≠ [] ∧ ∃ place, d.find false q = .ok place := by
  unfold replace at h
  split at h
  · cases h
  · next hnul =>
    have hq : hasNul q = false := (Bool.or_eq_false_iff.1 (by simpa using hnul)).2
    simp only at h
    split at h
    · cases h
    · cases h
    · next old new _ hnew =>
      split at h
      · cases h
      · next hends =>
        refine ⟨fun hnil => ?_, new, by rw [find, hq, hnew]; rfl⟩
        simp [endsInName, Path.name, hnil] at hends

/-! ### A directory that is there -/

/-- A path leads to a directory. -/
structure Stands (d : Disk) (p : Path) : Prop where
  seen : d.seen p = some .directory
  found : ∃ place, d.find true p = .ok place

/-- What stands where a file was made looks vacant before, also before directories were made. -/
theorem Edited.none_of_none {S : Location → Prop} {d e : Disk} (h : Edited S d e) {l : Location}
    (hl : ¬S l) (hnone : e.get? l = none) : d.get? l = none := by
  rcases h.kept l hl with heq | ⟨hn, -⟩
  · rw [← heq, hnone]
  · exact hn

/-! ### A file that is being written -/

/-- A path leads to a file that can be found. -/
structure Holds (d : Disk) (p : Path) (b : List UInt8) (m : Nat) : Prop where
  plain : d.Plain
  found : ∃ place, d.find false p = .ok place
  names : p.names ≠ []
  file : d.get? (d.locationOf p) = some (.file b m)

/-- A file that was just made is held. -/
theorem holds_createNew {d e : Disk} (hd : d.Plain) {p : Path}
    (h : d.createNew p = .ok (some e)) :
    e.Holds p [] privateMode ∧ d.get? (d.locationOf p) = none ∧
      Edited (· = d.locationOf p) d e := by
  obtain ⟨hopen, hnone, hp, rfl, place, hfind⟩ := createNew_ok hd h
  have hedit : Edited (· = d.locationOf p) d (d.put (d.locationOf p) (.file [] privateMode)) :=
    Edited.put hd hopen (by simp) (.inl rfl)
  refine ⟨⟨hedit.plain, ⟨_, hedit.toWithin.find hd hedit.plain hfind⟩, hp, ?_⟩, hnone, hedit⟩
  rw [hedit.locationOf, hopen.get?_put, if_pos rfl]

namespace Holds

variable {d : Disk} {p : Path} {b : List UInt8} {m : Nat}

theorem seen (h : d.Holds p b m) : d.seen p = some (.file b m) := by
  rw [Disk.seen, if_neg h.names, h.file]

theorem isOpen (h : d.Holds p b m) : d.Open (d.locationOf p) := by
  obtain ⟨place, hplace⟩ := h.found
  exact (find_open h.plain hplace (by simp [h.seen])).1

/-- Where the file stands, another can be put. -/
theorem put (h : d.Holds p b m) (b' : List UInt8) (k : Nat) :
    (d.put (d.locationOf p) (.file b' k)).Holds p b' k ∧
      Edited (· = d.locationOf p) d (d.put (d.locationOf p) (.file b' k)) := by
  have hopen := h.isOpen
  have hedit : Edited (· = d.locationOf p) d (d.put (d.locationOf p) (.file b' k)) :=
    Edited.put h.plain hopen (by simp) (.inl rfl)
  obtain ⟨place, hplace⟩ := h.found
  refine ⟨⟨hedit.plain, ⟨_, hedit.toWithin.find h.plain hedit.plain hplace⟩, h.names, ?_⟩, hedit⟩
  rw [hedit.locationOf, hopen.get?_put, if_pos rfl]

/-- Changes elsewhere leave the file where it is. -/
theorem edited {S : Location → Prop} {e : Disk} (h : d.Holds p b m) (he : Edited S d e)
    (hS : ¬S (d.locationOf p)) : e.Holds p b m := by
  obtain ⟨place, hplace⟩ := h.found
  refine ⟨he.plain, ⟨_, he.toWithin.find h.plain he.plain hplace⟩, h.names, ?_⟩
  rw [he.locationOf]
  exact (he.file_iff hS b m).2 h.file

/-- The file is what the path leads to. -/
theorem leads (h : d.Holds p b m) : d.find true p = .ok ⟨d.locationOf p, some (.file b m)⟩ := by
  obtain ⟨place, hplace⟩ := h.found
  rw [← h.seen]
  exact (Within.refl d).find h.plain h.plain hplace

theorem status (h : d.Holds p b m) :
    d.status p = .ok ⟨d.locationOf p, some (.file b m)⟩ := by
  simp [Disk.status, h.leads]

/-- Bytes can be written to the end of the file. -/
theorem append (h : d.Holds p b m) (more : List UInt8) :
    d.append p more = .ok (d.put (d.locationOf p) (.file (b ++ more) m)) := by
  simp [Disk.append, h.status]

theorem read (h : d.Holds p b m) : d.read p = .ok b := by
  simp [Disk.read, h.leads]

theorem exists? (h : d.Holds p b m) : d.exists? p = .ok true := by
  rw [Disk.exists?, ask, h.status]

/-- The mode of the file can be set. -/
theorem setMode (h : d.Holds p b m) (k : Nat) :
    d.setMode p k = .ok (d.put (d.locationOf p) (.file b k)) := by
  rw [Disk.setMode, h.status]

end Holds

/-- A file that can be read is held. -/
theorem holds_read {d : Disk} (hd : d.Plain) {p : Path} {b : List UInt8} (h : d.read p = .ok b) :
    ∃ m, d.Holds p b m := by
  obtain ⟨hopen, m, hfile⟩ := read_ok hd h
  unfold Disk.read at h
  split at h
  · cases h
  · next place hfind =>
    have hshown := find_ok hd hfind
    obtain ⟨-, -, rfl⟩ := hshown
    refine ⟨m, hd, ⟨_, (Within.refl d).find hd hd hfind⟩, ?_, hfile⟩
    intro hnames
    have hseen : d.seen p = some .directory := by rw [seen, if_pos hnames]
    rw [hseen] at h
    cases h

/-- A file that was written is held. -/
theorem holds_write {d e : Disk} (hd : d.Plain) {p : Path} {b : List UInt8}
    (h : d.write p b = .ok e) :
    (∃ m, e.Holds p b m) ∧ Edited (· = d.locationOf p) d e := by
  obtain ⟨m, hopen, rfl, n, hlast, -⟩ := write_ok hd h
  have hedit : Edited (· = d.locationOf p) d (d.put (d.locationOf p) (.file b m)) :=
    Edited.put hd hopen (by simp) (.inl rfl)
  have hfound : ∃ place, d.find true p = .ok place := by
    unfold write at h
    split at h
    · cases h
    · next place hfind => exact ⟨place, hfind⟩
  obtain ⟨place, hfind⟩ := hfound
  have hnames : p.names ≠ [] := by
    intro hnil
    simp [hnil] at hlast
  refine ⟨⟨m, hedit.plain, ⟨_, hedit.toWithin.find hd hedit.plain hfind⟩, hnames, ?_⟩, hedit⟩
  rw [hedit.locationOf, hopen.get?_put, if_pos rfl]

end ReleaseFetch.Disk
