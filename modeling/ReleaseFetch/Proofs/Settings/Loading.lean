/-
**What gets out of loading a configuration.**

To load a configuration is to find its file, to read the text, to lay variables over the entries and
to check what is left.  All of it is decided by the disk and the environment.  The file may be
missing or unreadable, which is refused; what is not refused comes from a path that cannot be looked
at, or from trouble with the text or with the entries, and all of that gets out of the whole.

Main definitions:

* `ReleaseFetch.Settings.fileOn`, `ReleaseFetch.Settings.entriesOn` — the configuration file on a
  disk, and what is entered in it;
* `ReleaseFetch.Settings.Escape` — what gets out of loading a configuration.

Main results:

* `ReleaseFetch.Settings.load_decides` — the configuration of a run as a decision;
* `ReleaseFetch.Settings.load_escapes` — what a run fails with where it does not refuse.
-/

import ReleaseFetch.Proofs.Command.Status
import ReleaseFetch.Proofs.Settings.Trouble

set_option autoImplicit false

namespace ReleaseFetch

open Disk Session

/-! ### What a disk holds -/

namespace Disk

variable {d : Disk} {p : Path}

/-- What the disk says of a path is no refusal. -/
theorem find_not_refusal {follow : Bool} {f : Failure} (h : d.find follow p = .error f) :
    f.isRefusal = false := by
  unfold find at h
  split at h
  · cases h
    rfl
  · split at h
    · cases h
    · cases h
      rfl

theorem exists?_not_refusal {f : Failure} (h : d.exists? p = .error f) : f.isRefusal = false := by
  unfold exists? ask status at h
  cases hfind : d.find true p with
  | error g =>
      rw [hfind] at h
      simp only at h
      split at h
      · cases h
      · cases h
        exact find_not_refusal hfind
  | ok place =>
      rw [hfind] at h
      cases hentry : place.entry with
      | none => simp [hentry, saysAbsent, failAt] at h
      | some x => simp [hentry] at h

theorem workingPath_not_refusal {f : Failure} (h : d.workingPath = .error f) :
    f.isRefusal = false := by
  unfold workingPath at h
  split at h
  · cases h
  · cases h
    rfl

/-- A file that is there is read, or the system says why it is not. -/
theorem read_of_exists {f : Failure} (hexists : d.exists? p = .ok true)
    (hread : d.read p = .error f) : f.isSystem = true := by
  obtain ⟨q, hfind, hentry⟩ := exists?_iff.1 hexists
  unfold read at hread
  rw [hfind] at hread
  simp only at hread
  split at hread
  · cases hread
  · cases hread
    rfl
  · next hnone => exact absurd hnone hentry

theorem exists?_of_read {bytes : List UInt8} (hread : d.read p = .ok bytes) :
    d.exists? p = .ok true := by
  unfold read at hread
  split at hread
  · cases hread
  · next place hfind =>
    refine exists?_iff.2 ⟨place, hfind, ?_⟩
    split at hread
    · next h => rw [h]; exact Option.some_ne_none _
    · cases hread
    · cases hread

end Disk

/-! ### Loading -/

namespace Settings

variable {d : Disk} {file : Option Path}

/-- The path at which a configuration file is looked for. -/
def pathOn (d : Disk) : Option Path → Except Failure Path
  | some p => .ok p
  | none => d.workingPath.map (·.child defaultFile)

/-- The configuration file on a disk: one that is named has to be there. -/
def fileOn (d : Disk) (file : Option Path) : Except Failure (Option Path) :=
  match pathOn d file with
  | .error f => .error f
  | .ok p =>
    match d.exists? p, file with
    | .error f, _ => .error f
    | .ok true, _ => .ok (some p)
    | .ok false, some _ => .error (.problem (.config s!"Configuration file not found: {p.text}"))
    | .ok false, none => .ok none

/-- The entries of a configuration file on a disk. -/
def entriesOn (d : Disk) : Option Path → Except Failure ConfigFile.Entries
  | none => .ok []
  | some p =>
    match d.read p with
    | .error f =>
      if f.isSystem then
        .error (.problem (.config s!"Cannot read config file {p.text}: {f.message}"))
      else .error f
    | .ok bytes => ConfigFile.settingsOfBytes p.text bytes

section FileOn

variable {p : Path} {f : Failure}

theorem fileOn_lost (hpath : pathOn d file = .error f) : fileOn d file = .error f := by
  rw [fileOn, hpath]

theorem fileOn_unseen (hpath : pathOn d file = .ok p) (hexists : d.exists? p = .error f) :
    fileOn d file = .error f := by
  simp only [fileOn, hpath, hexists]

theorem fileOn_there (hpath : pathOn d file = .ok p) (hexists : d.exists? p = .ok true) :
    fileOn d file = .ok (some p) := by
  simp only [fileOn, hpath, hexists]

theorem fileOn_refused {q : Path} (hpath : pathOn d (some q) = .ok p)
    (hexists : d.exists? p = .ok false) : fileOn d (some q) =
      .error (.problem (.config s!"Configuration file not found: {p.text}")) := by
  simp only [fileOn, hpath, hexists]

theorem fileOn_missing (hpath : pathOn d none = .ok p) (hexists : d.exists? p = .ok false) :
    fileOn d none = .ok none := by
  simp only [fileOn, hpath, hexists]

theorem entriesOn_read {bytes : List UInt8} (hread : d.read p = .ok bytes) :
    entriesOn d (some p) = ConfigFile.settingsOfBytes p.text bytes := by
  simp only [entriesOn, hread]

/-- A file that is there and cannot be read is refused. -/
theorem entriesOn_unread (hexists : d.exists? p = .ok true) (hread : d.read p = .error f) :
    entriesOn d (some p) =
      .error (.problem (.config s!"Cannot read config file {p.text}: {f.message}")) := by
  simp only [entriesOn, hread, read_of_exists hexists hread, if_true]

end FileOn

theorem file?_perform (file : Option Path) (w : World) :
    (file? file).perform w = (fileOn w.disk file, w) := by
  cases file with
  | some p =>
      rw [file?, perform_bind, perform_look]
      simp only [fileOn, pathOn]
      cases w.disk.exists? p with
      | error f => rfl
      | ok found => cases found <;> rfl
  | none =>
      rw [file?, perform_bind, perform_look]
      simp only [fileOn, pathOn]
      cases w.disk.workingPath with
      | error f => rfl
      | ok here =>
          simp only [Except.map, perform_bind, perform_look]
          cases w.disk.exists? (here.child defaultFile) with
          | error f => rfl
          | ok found => cases found <;> rfl

theorem entriesOf_perform (file : Option Path) (w : World) :
    ((entriesOf file).perform w).1 = entriesOn w.disk file := by
  cases file with
  | none => rfl
  | some p =>
      rw [entriesOf, perform_bind, perform_log, ConfigFile.load]
      simp only [perform_bind, perform_attempt, perform_look, entriesOn]
      cases w.disk.read p with
      | error f => cases hsystem : f.isSystem <;> simp [hsystem]
      | ok bytes => simp

/-- Where what comes second does not depend on the world, neither does its result. -/
theorem perform_bind_fst {α β : Type} {x : Session α} {k : α → Session β} {r : α → Except Failure β}
    (w : World) (hk : ∀ a v, ((k a).perform v).1 = r a) :
    ((x >>= k).perform w).1 = (x.perform w).1 >>= r := by
  rw [perform_bind]
  rcases x.perform w with ⟨_ | a, v⟩
  · rfl
  · exact hk a v

/-- **What a run loads** is decided by the disk and the environment. -/
theorem load_decides (s : Site) (h : Host) (file : Option Path) (w : World) :
    ((load s h file).perform w).1 =
      fileOn w.disk file >>= entriesOn w.disk >>= fun entries =>
        ofEntries s (override (activeOverrides h) entries) := by
  have hnoted (entries : ConfigFile.Entries) (v : World) :
      ((noteOverrides (activeOverrides h) >>= fun _ =>
        give (ofEntries s (override (activeOverrides h) entries))).perform v).1 =
        ofEntries s (override (activeOverrides h) entries) := by
    obtain ⟨j, hyields⟩ := (noteOverrides_yields (activeOverrides h)).bind fun _ =>
      Yields.give (ofEntries s (override (activeOverrides h) entries))
    rw [hyields]
    rfl
  rw [load, ← bind_assoc, perform_bind_fst w hnoted, perform_bind, file?_perform]
  cases fileOn w.disk file with
  | error f => rfl
  | ok found => exact congrArg (· >>= _) (entriesOf_perform found w)

/-! ### Escapes -/

variable {s : Site} {h : Host} {p : Path} {f : Failure}

/-- **What gets out of loading a configuration**: the working directory is gone, the path of the
file cannot be looked at, the text of the file is in trouble, or what is entered in it is, with the
variables laid over it; where the file that is not named is missing, these stand alone. -/
inductive Escape (s : Site) (h : Host) (d : Disk) : Option Path → Failure → Prop
  | lost {file : Option Path} {f : Failure} (hpath : pathOn d file = .error f) : Escape s h d file f
  | unseen {file : Option Path} {p : Path} {f : Failure} (hpath : pathOn d file = .ok p)
      (hexists : d.exists? p = .error f) : Escape s h d file f
  | text {file : Option Path} {p : Path} {bytes : List UInt8} {f : Failure}
      (hpath : pathOn d file = .ok p) (hread : d.read p = .ok bytes)
      (htrouble : ConfigFile.Trouble bytes f) : Escape s h d file f
  | entries {file : Option Path} {p : Path} {bytes : List UInt8} {entries : ConfigFile.Entries}
      {f : Failure} (hpath : pathOn d file = .ok p) (hread : d.read p = .ok bytes)
      (hentries : ConfigFile.settingsOfBytes p.text bytes = .ok entries)
      (htrouble : Trouble s (override (activeOverrides h) entries) f) : Escape s h d file f
  | missing {p : Path} {f : Failure} (hpath : pathOn d none = .ok p)
      (hmissing : d.exists? p = .ok false)
      (htrouble : Trouble s (override (activeOverrides h) []) f) : Escape s h d none f

theorem pathOn_not_refusal (hpath : pathOn d file = .error f) : f.isRefusal = false := by
  cases file with
  | some p => cases hpath
  | none =>
      unfold pathOn at hpath
      cases hhere : d.workingPath with
      | error g =>
          rw [hhere] at hpath
          cases hpath
          exact workingPath_not_refusal hhere
      | ok here =>
          rw [hhere] at hpath
          cases hpath

theorem escape_of_lost {g : Failure} (hpath : pathOn d file = .error g) :
    Escape s h d file f ↔ f = g := by
  refine ⟨fun hescape => ?_, ?_⟩
  · cases hescape with
    | lost hpath' => exact Except.error.inj (hpath'.symm.trans hpath)
    | unseen hpath' | text hpath' | entries hpath' | missing hpath' =>
        rw [hpath] at hpath'
        cases hpath'
  · rintro rfl
    exact .lost hpath

/-- What gets out where there is a path to look at. -/
theorem escape_iff (hpath : pathOn d file = .ok p) :
    Escape s h d file f ↔
      d.exists? p = .error f ∨
      (∃ bytes, d.read p = .ok bytes ∧ (ConfigFile.Trouble bytes f ∨
        ∃ entries, ConfigFile.settingsOfBytes p.text bytes = .ok entries ∧
          Trouble s (override (activeOverrides h) entries) f)) ∨
      file = none ∧ d.exists? p = .ok false ∧ Trouble s (override (activeOverrides h) []) f := by
  have hsame {q : Path} (hpath' : pathOn d file = .ok q) : q = p :=
    Except.ok.inj (hpath'.symm.trans hpath)
  refine ⟨fun hescape => ?_, ?_⟩
  · cases hescape with
    | lost hpath' => rw [hpath] at hpath'; cases hpath'
    | unseen hpath' hexists => exact .inl (hsame hpath' ▸ hexists)
    | text hpath' hread htrouble =>
        obtain rfl := hsame hpath'
        exact .inr (.inl ⟨_, hread, .inl htrouble⟩)
    | entries hpath' hread hentries htrouble =>
        obtain rfl := hsame hpath'
        exact .inr (.inl ⟨_, hread, .inr ⟨_, hentries, htrouble⟩⟩)
    | missing hpath' hmissing htrouble =>
        exact .inr (.inr ⟨rfl, hsame hpath' ▸ hmissing, htrouble⟩)
  · rintro (hexists | ⟨bytes, hread, htrouble | ⟨entries, hentries, htrouble⟩⟩ |
      ⟨rfl, hmissing, htrouble⟩)
    · exact .unseen hpath hexists
    · exact .text hpath hread htrouble
    · exact .entries hpath hread hentries htrouble
    · exact .missing hpath hmissing htrouble

/-- **What a run fails with where it does not refuse.**  To load a configuration ends with a failure
that is no refusal if and only if that failure is one of those that get out. -/
theorem load_escapes (s : Site) (h : Host) (file : Option Path) (w : World) (f : Failure) :
    ((load s h file).perform w).1 = .error f ∧ f.isRefusal = false ↔ Escape s h w.disk file f := by
  rw [load_decides]
  generalize w.disk = d
  revert f
  change Leaks _ _
  have hentered (entries : ConfigFile.Entries) :=
    ofEntries_leaks (s := s) (override (activeOverrides h) entries)
  cases hpath : pathOn d file with
  | error g =>
      rw [fileOn_lost hpath]
      exact (Leaks.error (pathOn_not_refusal hpath)).congr fun f => (escape_of_lost hpath).symm
  | ok p =>
      have hunread (hexists : d.exists? p ≠ .ok true) (bytes : List UInt8) : d.read p ≠ .ok bytes :=
        fun hread => hexists (exists?_of_read hread)
      cases hexists : d.exists? p with
      | error g =>
          rw [fileOn_unseen hpath hexists]
          refine (Leaks.error (exists?_not_refusal hexists)).congr fun f => ?_
          simp [escape_iff hpath, hexists, hunread, eq_comm]
      | ok found =>
          cases found with
          | true =>
              rw [fileOn_there hpath hexists]
              cases hread : d.read p with
              | error g =>
                  change Leaks (entriesOn d (some p) >>= _) _
                  rw [entriesOn_unread hexists hread]
                  refine Leaks.of_tight (.refusal rfl) fun f => ?_
                  simp [escape_iff hpath, hexists, hread]
              | ok bytes =>
                  change Leaks (entriesOn d (some p) >>= _) _
                  rw [entriesOn_read hread]
                  refine ((ConfigFile.settingsOfBytes_leaks p.text bytes).bind fun entries _ =>
                    hentered entries).congr fun f => ?_
                  simp [escape_iff hpath, hexists, hread]
          | false =>
              cases file with
              | some q =>
                  rw [fileOn_refused hpath hexists]
                  refine Leaks.of_tight (.refusal rfl) fun f => ?_
                  simp [escape_iff hpath, hexists, hunread]
              | none =>
                  rw [fileOn_missing hpath hexists]
                  refine (hentered []).congr fun f => ?_
                  simp [escape_iff hpath, hexists, hunread]

/-- **A key that is a number** is neither loaded nor refused: its name is missing in the refusal. -/
theorem load_number_key :
    let w := World.fresh (CommandLine.configuredDisk "1: x\n") []
    ∃ f, ((load CommandLine.plainSite ⟨"linux", "x86_64", []⟩ none).perform w).1 = .error f ∧
      f.isRefusal = false :=
  ⟨.value .type "sequence item 0: expected str instance, int found", by decide +kernel, rfl⟩

end Settings

end ReleaseFetch
