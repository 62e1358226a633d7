/-
**Directories that are made.**

A run makes the directories on the way to a few paths, and no others.  This module follows the
directories of a disk without links through the steps on files: making a directory makes it and
those above it, and every other step makes none.  Moving a file makes none only because what is
moved is no directory, so the steps that write a file aside have a motion of their own.

Main definitions:

* `ReleaseFetch.Path.Descends` — a path that only goes down;
* `ReleaseFetch.Disk.Built` — directories are made at some locations only;
* `ReleaseFetch.Motion.builds` — directories are made on the way to some paths only;
* `ReleaseFetch.Motion.buildsNone` — no directory is made while a path leads to none.

Main results:

* `ReleaseFetch.Files.ensureDirectory_builds` — the directories that making a directory makes;
* `ReleaseFetch.Stream.keep_builds`, `ReleaseFetch.Stream.download_builds` — a download makes the
  directory of its destination only.
-/

import ReleaseFetch.Proofs.Transfer.Following

set_option autoImplicit false

namespace ReleaseFetch

open Disk Session

/-! ### Paths that go down -/

/-- Where names only go down, the parent leads to a location above. -/
theorem Disk.locationOf_parent_suffix {p : Path} (h : ∀ n ∈ p.names, IsName n) (d : Disk) :
    d.locationOf p.parent <:+ d.locationOf p := by
  have hparent : ∀ n ∈ p.parent.names, IsName n := fun n hn => h n (List.dropLast_subset _ hn)
  have hstart : d.start p.parent = d.start p := rfl
  rw [locationOf, locationOf, lead_of_names h, lead_of_names hparent, hstart, Path.parent_names]
  rcases List.eq_nil_or_concat p.names with hnil | ⟨names, n, hnames⟩
  · rw [hnil]
    exact List.suffix_refl _
  · rw [hnames, List.concat_eq_append, List.dropLast_concat, List.reverse_append]
    exact List.suffix_cons n _

/-- A readable path that only goes down. -/
structure Path.Descends (p : Path) : Prop where
  readable : p.Readable
  down : p.goesUp = false

namespace Path.Descends

variable {p : Path}

theorem isName (h : p.Descends) : ∀ n ∈ p.names, IsName n := by
  intro n hn
  refine ⟨(h.readable n hn).2, fun hdots => ?_⟩
  have hup : p.goesUp = true := by
    rw [goesUp, List.contains_eq_mem, decide_eq_true_eq, ← hdots]
    exact hn
  rw [h.down] at hup
  cases hup

theorem parent (h : p.Descends) : p.parent.Descends := by
  refine ⟨fun n hn => h.readable n (List.dropLast_subset _ hn), ?_⟩
  have hdown := h.down
  unfold goesUp at *
  simp only [List.contains_eq_mem, decide_eq_false_iff_not] at *
  exact fun hdots => hdown (List.dropLast_subset _ hdots)

/-- The parent leads to a location above. -/
theorem parent_suffix (h : p.Descends) (d : Disk) :
    d.locationOf p.parent <:+ d.locationOf p := locationOf_parent_suffix h.isName d

end Path.Descends

/-! ### Disks -/

/-- The second disk is plain and has the directories of the first and some at the locations of
`M`. -/
structure Disk.Built (M : Location → Prop) (d e : Disk) : Prop where
  plain : e.Plain
  here : e.here = d.here
  made : ∀ {l : Location}, e.get? l = some .directory → d.get? l = some .directory ∨ M l

namespace Disk.Built

variable {M N : Location → Prop} {d e f : Disk}

theorem refl (hd : d.Plain) : Built M d d := ⟨hd, rfl, .inl⟩

theorem trans (h : Built M d e) (h' : Built M e f) : Built M d f :=
  ⟨h'.plain, h'.here.trans h.here, fun hl => (h'.made hl).elim h.made .inr⟩

theorem mono (h : Built M d e) (hM : ∀ l, M l → N l) : Built N d e :=
  ⟨h.plain, h.here, fun hl => (h.made hl).imp_right (hM _)⟩

theorem locationOf (h : Built M d e) (p : Path) : e.locationOf p = d.locationOf p :=
  locationOf_of_here h.here p

/-- What is put at an open location makes a directory there at most. -/
theorem put (hd : d.Plain) {l : Location} (hl : d.Open l) {x : Entry} (hx : ∀ t, x ≠ .link t)
    (hM : x = .directory → M l) : Built M d (d.put l x) := by
  refine ⟨hd.put hl hx, rfl, fun {m} hm => ?_⟩
  rw [hl.get?_put] at hm
  split at hm
  · next hml =>
    subst hml
    exact .inr (hM (Option.some.inj hm))
  · exact .inl hm

theorem erase (hd : d.Plain) {l : Location} (hl : d.Open l) : Built M d (d.erase l) := by
  refine ⟨hd.erase hl.vacant hl.ne_nil, rfl, fun {m} hm => ?_⟩
  rw [get?_erase d l m hl.ne_nil] at hm
  split at hm
  · cases hm
  · exact .inl hm

end Disk.Built

namespace Disk

/-- Bytes are written to the end of a file. -/
theorem append_ok {d e : Disk} (hd : d.Plain) {p : Path} {more : List UInt8}
    (h : d.append p more = .ok e) :
    ∃ b m, d.Open (d.locationOf p) ∧ e = d.put (d.locationOf p) (.file b m) := by
  unfold append at h
  split at h
  · cases h
  · next place hstatus =>
    split at h
    · next b m hfile =>
      obtain ⟨hloc, hopen, -⟩ := status_file hd hstatus hfile
      exact ⟨_, m, hopen, by rw [← hloc]; exact (Except.ok.inj h).symm⟩
    · cases h

/-- What is moved from a path that leads to no directory is a file. -/
theorem replace_of_not_directory {d e : Disk} (hd : d.Plain) {p q : Path}
    (hp : d.get? (d.locationOf p) ≠ some .directory) (h : d.replace p q = .ok e) :
    p.names ≠ [] ∧ ∃ b m, d.get? (d.locationOf p) = some (.file b m) := by
  unfold replace at h
  split at h
  · cases h
  · simp only at h
    split at h
    · cases h
    · cases h
    · next old new hold hnew =>
      obtain rfl := locate_eq hd hold
      split at h
      · cases h
      · next hname =>
        have hnames : p.names ≠ [] := by
          intro hnil
          simp [endsInName, Path.name, hnil] at hname
        rw [seen, if_neg hnames] at h
        rcases hd.entry_cases (d.locationOf p) with hx | hx | hx
        · rw [hx] at h
          cases h
        · exact absurd hx hp
        · exact ⟨hnames, hx⟩

end Disk

/-! ### Steps -/

/-- Directories are made on the way to some paths only. -/
def Motion.builds (Q : Path → Prop) : Motion where
  rel w w' := w.disk.Plain →
    Built (fun l => ∃ p, Q p ∧ l <:+ w.disk.locationOf p) w.disk w'.disk
  refl _ := Built.refl
  trans := by
    intro u v w h h' hu
    have hv := h hu
    refine hv.trans ((h' hv.plain).mono ?_)
    rintro l ⟨p, hp, hl⟩
    exact ⟨p, hp, by rwa [hv.locationOf] at hl⟩
  journal _ _ := Built.refl

/-- No directory is made while the path leads to none. -/
def Motion.buildsNone (p : Path) : Motion where
  rel w w' := w.disk.Plain → w.disk.get? (w.disk.locationOf p) ≠ some .directory →
    Built (fun _ => False) w.disk w'.disk
  refl _ hw _ := Built.refl hw
  trans := by
    intro u v w h h' hu hp
    have hv := h hu hp
    refine hv.trans (h' hv.plain ?_)
    rw [hv.locationOf]
    exact fun hdir => (hv.made hdir).elim hp id
  journal _ _ hw _ := Built.refl hw

namespace Session

variable {α : Type} {Q : Path → Prop} {p : Path}

/-- A step that leaves the disk alone makes no directory. -/
theorem Moves.builds {x : Session α} (hx : x.Moves Motion.still) : x.Moves (Motion.builds Q) := by
  intro w hw
  have hdisk : (x.perform w).2.disk = w.disk := hx w
  rw [hdisk]
  exact Built.refl hw

theorem moves_builds {f : Disk → Except Failure Disk}
    (hf : ∀ d e, d.Plain → f d = .ok e → Built (fun l => ∃ p, Q p ∧ l <:+ d.locationOf p) d e) :
    (change f).Moves (Motion.builds Q) := by
  intro w hw
  rw [perform_change]
  split
  · next d hd => exact hf _ _ hw hd
  · exact Built.refl hw

theorem moves_buildsNone {f : Disk → Except Failure Disk}
    (hf : ∀ d e, d.Plain → d.get? (d.locationOf p) ≠ some .directory → f d = .ok e →
      Built (fun _ => False) d e) : (change f).Moves (Motion.buildsNone p) := by
  intro w hw hp
  rw [perform_change]
  split
  · next d hd => exact hf _ _ hw hp hd
  · exact Built.refl hw

end Session

namespace Files

variable {Q : Path → Prop}

theorem makeDirectory_builds {p q : Path} (hq : Q q)
    (hpq : ∀ d : Disk, d.locationOf p <:+ d.locationOf q) :
    (change (·.makeDirectory p)).Moves (Motion.builds Q) := by
  refine moves_builds ?_
  intro d e hd h
  obtain ⟨hopen, -, rfl, -⟩ := makeDirectory_ok hd h
  exact Built.put hd hopen (by simp) fun _ => ⟨q, hq, hpq d⟩

/-- **Making a directory makes it and those above it.** -/
theorem ensureDirectory_builds {p q : Path} (hp : p.Descends) (hq : Q q)
    (hpq : ∀ d : Disk, d.locationOf p <:+ d.locationOf q) :
    (ensureDirectory p).Moves (Motion.builds Q) :=
  ensureWithin_moves (A := fun p => p.Descends ∧ ∀ d : Disk, d.locationOf p <:+ d.locationOf q)
    (fun _ h => ⟨h.1.parent, fun d => (h.1.parent_suffix d).trans (h.2 d)⟩)
    (fun _ h => makeDirectory_builds hq h.2) _ ⟨hp, hpq⟩

theorem discard_built {M : Location → Prop} (p : Path) {w : World} (hw : w.disk.Plain) :
    Built M w.disk ((discard p).perform w).2.disk := by
  rcases discard_disk p w with h | ⟨-, h⟩
  · obtain ⟨hopen, heq⟩ := unlink_ok hw h
    rw [heq]
    exact Built.erase hw hopen
  · rw [h]
    exact Built.refl hw

theorem discard_builds (p : Path) : (discard p).Moves (Motion.builds Q) := fun _ => discard_built p

theorem discard_buildsNone (p q : Path) : (discard p).Moves (Motion.buildsNone q) :=
  fun _ hw _ => discard_built p hw

theorem copyExecutable_builds {source destination q : Path} (hp : destination.parent.Descends)
    (hq : Q q) (hpq : ∀ d : Disk, d.locationOf destination.parent <:+ d.locationOf q) :
    (copyExecutable source destination).Moves (Motion.builds Q) := by
  refine .bind (ensureDirectory_builds hp hq hpq) fun _ => moves_builds ?_
  intro d e hd h
  obtain ⟨-, b, -, hwrite⟩ := copyFile_ok h
  obtain ⟨m, hopen, rfl, -⟩ := write_ok hd hwrite
  exact Built.put hd hopen (by simp) (by simp)

theorem makeExecutable_builds (p : Path) : (makeExecutable p).Moves (Motion.builds Q) := by
  refine moves_builds ?_
  intro d e hd h
  rcases setMode_ok hd h with ⟨rfl, -⟩ | ⟨b, m, hopen, -, rfl⟩
  · exact Built.refl hd
  · exact Built.put hd hopen (by simp) (by simp)

end Files

namespace Stream

variable {Q : Path → Prop}

/-! ### Downloads -/

theorem receive_buildsNone (p q : Path) (chunks : List Chunk) :
    (receive p chunks).Moves (Motion.buildsNone q) := by
  induction chunks with
  | nil => exact .pure _
  | cons c rest ih =>
      cases c with
      | failure f => exact .throw f
      | bytes b =>
          refine .bind (moves_buildsNone fun d e hd _ h => ?_) fun _ => ih
          obtain ⟨b, m, hopen, rfl⟩ := append_ok hd h
          exact Built.put hd hopen (by simp) (by simp)

theorem fill_buildsNone (r : Response) (temporary destination : Path) :
    (fill r temporary destination).Moves (Motion.buildsNone temporary) := by
  have hstart : (startReading r chunkSize).Moves (Motion.buildsNone temporary) :=
    fun _ hw _ => Built.refl hw
  refine .bind hstart fun _ => .bind (receive_buildsNone _ _ _) fun _ => moves_buildsNone ?_
  intro d e hd hdir h
  obtain ⟨hnames, b, m, hfile⟩ := replace_of_not_directory hd hdir h
  obtain ⟨hopen, rfl⟩ := replace_ok hd h hfile hnames
  -- what is moved is a file, so it lies in a directory
  have hold : d.Open (d.locationOf temporary) := by
    refine ⟨?_, hdir⟩
    cases hl : d.locationOf temporary with
    | nil =>
        rw [hl] at hfile
        cases hfile
    | cons n l =>
        rw [hl] at hfile
        have hne : d.get? (n :: l) ≠ none := by rw [hfile]; simp
        exact ⟨n, l, rfl, hd.named hne, hd.rooted hne⟩
  have herase : Built (fun _ => False) d (d.erase (d.locationOf temporary)) := Built.erase hd hold
  exact herase.trans (Built.put herase.plain (hopen.erase hdir hold.ne_nil) (by simp) (by simp))

theorem abandon_buildsNone (destination q : Path) (f : Failure) :
    (abandon destination f).Moves (Motion.buildsNone q) := by
  unfold abandon
  cases f.isInterrupt with
  | true => exact .throw f
  | false =>
      simp only [Bool.false_eq_true, if_false]
      refine .bind (.log _ _ _) fun _ => .bind (Files.discard_buildsNone _ _) ?_
      intro _
      cases f.isNetwork with
      | true => exact .fail _
      | false => exact .throw f

/-- **Keeping a response makes the directory of its destination only.** -/
theorem keep_builds (r : Response) {destination : Path}
    (hensure : (Files.ensureDirectory destination.parent).Moves (Motion.builds Q)) :
    (keep r destination).Moves (Motion.builds Q) := by
  intro w
  have hmade := hensure w
  rw [keep_prepare, perform_bind]
  rcases hprepare : (prepare destination).perform w with ⟨result, v⟩
  cases prepare_prepared hprepare with
  | failed ensured => rwa [ensured] at hmade
  | @made directory u e n ensured _ hnew =>
      rw [ensured] at hmade
      refine (Motion.builds Q).trans hmade fun hu => ?_
      obtain ⟨hholds, -, -⟩ := holds_createNew hu hnew
      have hbuilt : Built (fun l => ∃ p, Q p ∧ l <:+ u.disk.locationOf p) u.disk e := by
        obtain ⟨hopen, -, -, rfl, -⟩ := createNew_ok hu hnew
        exact Built.put hu hopen (by simp) (by simp)
      -- from here on the private file is a file, so moving it makes no directory
      have htail : (conclude r (partialPath directory destination n) destination).Moves
          (Motion.buildsNone (partialPath directory destination n)) :=
        conclude_moves (settle_moves (fill_buildsNone _ _ _) fun f => abandon_buildsNone _ _ f)
          (fun _ hw _ => Built.refl hw) (Files.discard_buildsNone _ _)
      have hfile : e.get? (e.locationOf (partialPath directory destination n)) ≠
          some .directory := by
        rw [hholds.file]
        simp
      exact hbuilt.trans ((htail { u with disk := e } hbuilt.plain hfile).mono fun _ => False.elim)

/-- A motion holds of a chain of requests if it holds of a hop, of closing and of keeping. -/
theorem follow_moves {T : Motion} {c : Client} {h : Host} {o : Options} {destination : Path}
    (hhop : ∀ url, (hop c h o destination url).Moves T) (hclose : ∀ r, (close r).Moves T)
    (hkeep : ∀ r, (keep r destination).Moves T) (first : String) (limit : Int) (left : Nat)
    (url : String) : (follow c h o destination first limit left url).Moves T := by
  induction left generalizing url with
  | zero => exact .fail _
  | succ left ih =>
      refine .bind (hhop url) fun r => .bind (judge_moves hclose url r) ?_
      intro n
      cases n with
      | go next => exact ih next
      | finish r => exact .bind (hkeep r) fun _ => .log _ _ _

/-- **A download makes the directory of its destination only.** -/
theorem download_builds (c : Client) (h : Host) (limit : Int) (url : String) {destination : Path}
    (o : Options) (hensure : (Files.ensureDirectory destination.parent).Moves (Motion.builds Q)) :
    (download c h limit url destination o).Moves (Motion.builds Q) :=
  follow_moves (fun _ => hop_moves (fun _ _ _ => (send_still _).builds) (Files.discard_builds _))
    (fun r => (close_still r).builds) (fun r => keep_builds r hensure) _ _ _ _

end Stream

end ReleaseFetch
