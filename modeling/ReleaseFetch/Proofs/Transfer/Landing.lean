/-
**A download on a disk with links.**

A stream that is kept may replace a link, and with it the way to directories behind it.  Apart from
that a directory stays one, and whatever way a stream ends, no directory and no link comes in.  A
command of the shell may leave what it likes, but it takes nothing away.

Main definitions:

* `ReleaseFetch.Motion.narrows` — no directory and no link comes in;
* `ReleaseFetch.Disk.Aftermath` — what became of a directory when a file came to its destination;
* `ReleaseFetch.Disk.Moved` — what a file that is moved lets give way;
* `ReleaseFetch.Session.Deposited` — what an entry comes to that a command leaves.

Main results:

* `ReleaseFetch.Disk.Aftermath.barred`, `ReleaseFetch.Disk.Aftermath.copyFile` — where a directory
  was, none can be made and no copy of the file can be written;
* `ReleaseFetch.Disk.Moved.aftermath`, `ReleaseFetch.Disk.Moved.gone` — what a file leaves behind
  when it is moved;
* `ReleaseFetch.Stream.keep_narrows`, `ReleaseFetch.Installer.download_confined` — a download whose
  directory is there brings in no directory and no link, but for those that a command leaves;
* `ReleaseFetch.Installer.download_aftermath` — what became of the directories when a download
  succeeded.
-/

import ReleaseFetch.Proofs.Credential.Scope
import ReleaseFetch.Proofs.Disk.Turning

set_option autoImplicit false

namespace ReleaseFetch

open Disk Session

/-- No directory and no link comes in. -/
def Motion.narrows : Motion where
  rel w w' := w'.disk.RoutesIn w.disk
  refl w := .refl w.disk
  trans h h' := h'.trans h
  journal w _ := .refl w.disk

theorem Session.Moves.narrows {α : Type} {x : Session α} (hx : x.Moves Motion.still) :
    x.Moves Motion.narrows := by
  intro w
  have hdisk : (x.perform w).2.disk = w.disk := hx w
  change (x.perform w).2.disk.RoutesIn w.disk
  rw [hdisk]
  exact .refl _

theorem Files.discard_narrows (p : Path) : (discard p).Moves Motion.narrows := by
  intro w
  rcases discard_disk p w with h | ⟨-, h⟩
  · obtain ⟨q, -, -, -, hturned⟩ := unlink_turned h
    exact hturned.narrows
  · change ((discard p).perform w).2.disk.RoutesIn w.disk
    rw [h]
    exact .refl _

namespace Files

theorem change_narrows {g : Disk → Except Failure Disk}
    (hg : ∀ d e, g d = .ok e → e.RoutesIn d) : (change g).Moves Motion.narrows := by
  intro w
  rw [perform_change]
  split
  · next e he => exact hg w.disk e he
  · exact .refl _

theorem copyFile_narrows (source destination : Path) :
    (change (·.copyFile source destination)).Moves Motion.narrows := by
  refine change_narrows fun d e h => ?_
  obtain ⟨-, b, -, hwrite⟩ := copyFile_ok h
  obtain ⟨l, m, hwritable, rfl⟩ := write_turned hwrite
  exact (turned_put hwritable.vacant b m).narrows

theorem makeExecutable_narrows (p : Path) : (makeExecutable p).Moves Motion.narrows := by
  refine change_narrows fun d e h => ?_
  rcases setMode_turned h with rfl | ⟨l, b, m, -, hl, rfl⟩
  · exact .refl _
  · exact (turned_put (by rw [hl]; simp) b executableMode).narrows

end Files

namespace Disk

variable {d e : Disk} {l : Location}

/-! ### What became of a directory -/

/-- What became of a directory when a file came to its destination: it is still there, or led over
the link that the file replaced. -/
inductive Aftermath (destination : Path) (e : Disk) (p : Path) : Prop where
  | directory (there : e.isDirectory? p = .ok true)
  | replaced {a : Location} {b : List UInt8} {m : Nat}
      (found : e.find true p = .ok ⟨a, some (.file b m)⟩)
      (same : ∀ q, e.find true destination = .ok q → q.location = a)
  | behind (found : e.find true p = .error (failAt p .notDirectory))

namespace Aftermath

variable {destination p : Path}

/-- **Where a directory was, no directory can be made**, and nothing is missing above it. -/
theorem barred (h : Aftermath destination e p) :
    ∃ f, e.makeDirectory p = .error f ∧ Files.isNoEntry f = false := by
  cases h with
  | directory there => exact ⟨_, makeDirectory_there there, rfl⟩
  | replaced found same =>
      rcases e.find_false p with ⟨m, t, hlink⟩ | heq
      · exact ⟨_, makeDirectory_of_some hlink (by simp), rfl⟩
      · exact ⟨_, makeDirectory_of_some (heq.trans found) (by simp), rfl⟩
  | behind found =>
      rcases e.find_false p with ⟨m, t, hlink⟩ | heq
      · exact ⟨_, makeDirectory_of_some hlink (by simp), rfl⟩
      · exact ⟨failAt p .notDirectory, by rw [makeDirectory, heq, found], rfl⟩

/-- **Where a directory was, the file cannot be copied to**: it is no file, or the same one. -/
theorem copyFile (h : Aftermath destination e p) (f : Disk) :
    e.copyFile destination p ≠ .ok f := by
  intro hcopy
  obtain ⟨hsame, b, hread, hwrite⟩ := copyFile_ok hcopy
  obtain ⟨l, m, hwritable, -⟩ := write_turned hwrite
  cases h with
  | directory there =>
      obtain ⟨m', hm'⟩ := isDirectory?_iff.1 there
      have hplace := Except.ok.inj (hm'.symm.trans hwritable.found)
      obtain ⟨rfl, hdir⟩ := Place.mk.inj hplace
      exact hwritable.vacant hdir.symm
  | behind found =>
      rw [hwritable.found] at found
      cases found
  | replaced found same =>
      unfold Disk.read at hread
      split at hread
      · cases hread
      · next q hfind =>
        split at hread
        · next b' m' hentry =>
          have hsource : e.status destination = .ok q :=
            status_eq_ok_iff.2 ⟨hfind, by rw [hentry]; simp⟩
          have htarget := status_eq_ok_iff.2 ⟨found, by simp⟩
          unfold isSame at hsame
          rw [hsource, htarget] at hsame
          simp [same q hfind] at hsame
        · cases hread
        · cases hread

/-- No executable can be copied to where a directory was either: none is made above it. -/
theorem copyExecutable {w w' : World} (h : Aftermath destination w.disk p)
    (habove : Aftermath destination w.disk p.parent) :
    (Files.copyExecutable destination p).perform w ≠ (.ok (), w') := by
  intro hok
  obtain ⟨_, v, hensure, hchange⟩ := bind_ok hok
  obtain ⟨f, hmake, hf⟩ := habove.barred
  have hsame := Files.ensureDirectory_of_error hmake hf
  rw [hensure] at hsame
  obtain rfl : v = w := hsame
  obtain ⟨e, hcopy, -⟩ := change_ok hchange
  exact h.copyFile e hcopy

end Aftermath

/-! ### The private file -/

/-- A path leads to a file, no last link followed. -/
def FileAt (d : Disk) (p : Path) (l : Location) : Prop :=
  ∃ b m, d.find false p = .ok ⟨l, some (.file b m)⟩

theorem FileAt.find_true {p : Path} (h : d.FileAt p l) :
    ∃ b m, d.find true p = .ok ⟨l, some (.file b m)⟩ := by
  obtain ⟨b, m, hfind⟩ := h
  refine ⟨b, m, ?_⟩
  rcases d.find_false p with ⟨m', t, hlink⟩ | heq
  · rw [hfind] at hlink
    cases hlink
  · exact heq.symm.trans hfind

theorem FileAt.get? {p : Path} (h : d.FileAt p l) : ∃ b m, d.get? l = some (.file b m) := by
  obtain ⟨b, m, hfind⟩ := h
  exact ⟨b, m, find_entry hfind (by simp)⟩

/-- A file that is put where a file or nothing was found is there, and takes no route away. -/
theorem fileAt_put {p : Path} {x : Option Entry} (hfind : d.find false p = .ok ⟨l, x⟩)
    (hold : ∀ y, x = some y → ∃ b m, y = .file b m) (b : List UInt8) (m : Nat) :
    (d.put l (.file b m)).FileAt p l ∧ d.RoutesIn (d.put l (.file b m)) ∧
      (d.put l (.file b m)).RoutesIn d := by
  have hne : x ≠ some .directory := by
    intro hdir
    obtain ⟨b', m', hx⟩ := hold _ hdir
    cases hx
  have hentry : d.get? l = x := find_entry hfind hne
  have hturned := turned_put (hentry ▸ hne) b m
  have hroutes := hturned.routesIn (hentry ▸ hold)
  refine ⟨⟨b, m, ?_⟩, hroutes, hturned.narrows⟩
  rw [hroutes.find hfind (.inl rfl), Place.on_of_ne _ hne, hturned.shows]

/-- A file stays where it is while bytes are written to its end. -/
theorem FileAt.append {p : Path} {more : List UInt8} (h : d.FileAt p l)
    (happend : d.append p more = .ok e) : e.FileAt p l ∧ d.RoutesIn e ∧ e.RoutesIn d := by
  obtain ⟨l', b, m, hfind, -, rfl⟩ := append_turned happend
  obtain ⟨b', m', htrue⟩ := h.find_true
  obtain ⟨rfl, -⟩ := Place.mk.inj (Except.ok.inj (htrue.symm.trans hfind))
  obtain ⟨b'', m'', hfalse⟩ := h
  exact fileAt_put hfalse (fun y hy => ⟨b'', m'', (Option.some.inj hy).symm⟩) _ _

/-- What a file that is moved lets give way: its own place, and then that of its destination. -/
theorem replace_turned {temporary destination : Path} (hfile : d.FileAt temporary l)
    (h : d.replace temporary destination = .ok e) :
    endsInName temporary = true ∧ endsInName destination = true ∧
      ∃ a x b m, d.find false destination = .ok ⟨a, x⟩ ∧ Turned l none d (d.erase l) ∧
        Turned a (some (.file b m)) (d.erase l) e := by
  obtain ⟨b, m, hfind⟩ := hfile
  obtain ⟨henters, hwalk⟩ := find_eq_ok_iff.1 hfind
  have hl : d.get? l = some (.file b m) := find_entry hfind (by simp)
  have herase : Turned l none d (d.erase l) := turned_erase (by rw [hl]; simp)
  unfold replace at h
  split at h
  · cases h
  · next hnul =>
    obtain ⟨-, hnul'⟩ := Bool.or_eq_false_iff.1 (by simpa using hnul)
    simp only at h
    split at h
    · cases h
    · cases h
    · next old new hold hnew =>
      have hold' : d.find false temporary = .ok old := by rw [Disk.find, henters.noNul, hold]; rfl
      have hnew' : d.find false destination = .ok new := by rw [Disk.find, hnul', hnew]; rfl
      obtain rfl := Except.ok.inj (hold'.symm.trans hfind)
      split at h
      · cases h
      · next hnames =>
        simp only at h
        split at h
        · cases h
        · next hdir =>
          obtain ⟨a, x⟩ := new
          have hx : x ≠ some .directory := by simpa using hdir
          obtain rfl := Except.ok.inj h
          have hnames' : endsInName temporary = true ∧ endsInName destination = true := by
            simpa using hnames
          refine ⟨hnames'.1, hnames'.2, a, x, b, m, hnew', herase, turned_put ?_ b m⟩
          have ha : d.get? a = x := find_entry hnew' hx
          by_cases hal : a = l
          · rw [hal, herase.shows]
            simp
          · rw [herase.other hal, ha]
            exact hx

/-- A path that ends in a name leads to places of that name only. -/
theorem location_of_endsInName {p : Path} {q : Place} (hends : endsInName p = true)
    (hdot : p.name ≠ ".") (h : d.find false p = .ok q) : ∃ k, q.location = p.name :: k := by
  unfold endsInName at hends
  rw [Bool.and_eq_true, bne_iff_ne, bne_iff_ne] at hends
  refine find_name ⟨hdot, hends.2⟩ ?_ h
  intro hnil
  exact hends.1 (by rw [Path.name, hnil]; rfl)

/-- A file was moved: its own place gave way to nothing, and then that of its destination to the
file.  Neither path ever leads to the place of the other one. -/
structure Moved (temporary destination : Path) (l a : Location) (d e : Disk) : Prop where
  taken : d.FileAt temporary l
  met : ∃ x, d.find false destination = .ok ⟨a, x⟩
  erased : Turned l none d (d.erase l)
  placed : ∃ b m, Turned a (some (.file b m)) (d.erase l) e
  temporary_ne : ∀ {f : Disk} {q : Place}, f.find false temporary = .ok q → q.location ≠ a
  destination_ne : ∀ {f : Disk} {q : Place}, f.find false destination = .ok q → q.location ≠ l

theorem moved_of_replace {temporary destination : Path} (htemporary : temporary.name ≠ ".")
    (hdestination : destination.name ≠ ".") (hnames : temporary.name ≠ destination.name)
    (hfile : d.FileAt temporary l) (h : d.replace temporary destination = .ok e) :
    ∃ a, Moved temporary destination l a d e := by
  obtain ⟨hends, hends', a, x, b, m, hfind, herased, hplaced⟩ := replace_turned hfile h
  obtain ⟨k, hk⟩ : ∃ k, l = temporary.name :: k := by
    obtain ⟨b', m', htaken⟩ := hfile
    exact location_of_endsInName hends htemporary htaken
  obtain ⟨k', hk'⟩ : ∃ k', a = destination.name :: k' :=
    location_of_endsInName hends' hdestination hfind
  refine ⟨a, hfile, ⟨x, hfind⟩, herased, ⟨b, m, hplaced⟩, fun hq heq => ?_, fun hq heq => ?_⟩
  · obtain ⟨j, hj⟩ := location_of_endsInName hends htemporary hq
    rw [heq, hk'] at hj
    exact hnames (List.cons.inj hj).1.symm
  · obtain ⟨j, hj⟩ := location_of_endsInName hends' hdestination hq
    rw [heq, hk] at hj
    exact hnames (List.cons.inj hj).1

namespace Moved

variable {temporary destination : Path} {a : Location}

theorem narrows (h : Moved temporary destination l a d e) : e.RoutesIn d := by
  obtain ⟨b, m, hplaced⟩ := h.placed
  exact hplaced.narrows.trans h.erased.narrows

/-- Where the destination can be looked up, it leads to the file. -/
theorem lands (h : Moved temporary destination l a d e) {q : Place}
    (hq : e.find false destination = .ok q) : q.location = a := by
  obtain ⟨b, m, hplaced⟩ := h.placed
  obtain ⟨x, hmet⟩ := h.met
  rcases hplaced.find false destination with h₁ | h₁ | h₁
  · rw [h₁] at hq
    rcases h.erased.find false destination with h₂ | h₂ | h₂
    · rw [h₂, hmet] at hq
      rw [← Except.ok.inj hq]
    · exact absurd rfl (h.destination_ne h₂)
    · rw [h₂] at hq
      cases hq
  · rw [h₁] at hq
    rw [← Except.ok.inj hq]
  · rw [h₁] at hq
    cases hq

/-- No link stands there, so it is the same if a last link is followed. -/
theorem lands_true (h : Moved temporary destination l a d e) {q : Place}
    (hq : e.find true destination = .ok q) : q.location = a := by
  obtain ⟨b, m, hplaced⟩ := h.placed
  rcases e.find_false destination with ⟨m', t, hlink⟩ | heq
  · have hentry := find_entry hlink (by simp)
    have hloc := h.lands hlink
    simp only at hloc hentry
    rw [hloc, hplaced.shows] at hentry
    cases hentry
  · exact h.lands (heq.trans hq)

/-- The way to a directory misses the private file, and may lead over the destination. -/
theorem aftermath (h : Moved temporary destination l a d e) {p : Path}
    (hp : d.isDirectory? p = .ok true) : Aftermath destination e p := by
  obtain ⟨b, m, hplaced⟩ := h.placed
  obtain ⟨b', m', hl⟩ := h.taken.get?
  have hp' : (d.erase l).isDirectory? p = .ok true :=
    (h.erased.routesIn fun y hy => ⟨b', m', Option.some.inj (hy.symm.trans hl)⟩).isDirectory? hp
  obtain ⟨j, hj⟩ := isDirectory?_iff.1 hp'
  rcases hplaced.find true p with h₁ | h₁ | h₁
  · exact .directory (isDirectory?_iff.2 ⟨j, h₁.trans hj⟩)
  · exact .replaced h₁ fun _ => h.lands_true
  · exact .behind h₁

/-- The file is gone from its own place. -/
theorem gone (h : Moved temporary destination l a d e) (e' : Disk) :
    e.unlink temporary ≠ .ok e' := by
  intro hunlink
  obtain ⟨b, m, hplaced⟩ := h.placed
  obtain ⟨b', m', htaken⟩ := h.taken
  obtain ⟨q, hq, hne, -, -⟩ := unlink_turned hunlink
  rcases hplaced.find false temporary with h₁ | h₁ | h₁
  · rw [h₁] at hq
    rcases h.erased.find false temporary with h₂ | h₂ | h₂
    · have hentry := find_entry (h₂.trans htaken) (by simp)
      rw [h.erased.shows] at hentry
      cases hentry
    · rw [h₂] at hq
      exact hne (by rw [← Except.ok.inj hq])
    · rw [h₂] at hq
      cases hq
  · exact absurd rfl (h.temporary_ne h₁)
  · rw [h₁] at hq
    cases hq

end Moved

end Disk

namespace Stream

/-! ### A response that is kept -/

/-- The private file stays a file while a body is received. -/
theorem receive_fileAt {p : Path} {l : Location} (chunks : List Chunk) {w : World}
    (h : w.disk.FileAt p l) :
    ((receive p chunks).perform w).2.disk.FileAt p l ∧
      w.disk.RoutesIn ((receive p chunks).perform w).2.disk ∧
        ((receive p chunks).perform w).2.disk.RoutesIn w.disk := by
  induction chunks generalizing w with
  | nil => exact ⟨h, .refl _, .refl _⟩
  | cons c rest ih =>
      cases c with
      | failure f => exact ⟨h, .refl _, .refl _⟩
      | bytes more =>
          rw [receive, perform_bind, perform_change]
          cases happend : w.disk.append p more with
          | error f => exact ⟨h, .refl _, .refl _⟩
          | ok e =>
              obtain ⟨hfile, hto, hfrom⟩ := h.append happend
              obtain ⟨hfile', hto', hfrom'⟩ := ih (w := { w with disk := e }) hfile
              exact ⟨hfile', hto.trans hto', hfrom'.trans hfrom⟩

/-- What filling the private file leaves: no new route, and after a success the aftermath of the
move. -/
theorem fill_lands {r : Response} {temporary destination : Path} {l : Location} {w : World}
    (htemporary : temporary.name ≠ ".") (hdestination : destination.name ≠ ".")
    (hnames : temporary.name ≠ destination.name) (hfile : w.disk.FileAt temporary l) :
    ((fill r temporary destination).perform w).2.disk.RoutesIn w.disk ∧
      (((fill r temporary destination).perform w).1 = .ok () →
        (∀ p, w.disk.isDirectory? p = .ok true →
          Aftermath destination ((fill r temporary destination).perform w).2.disk p) ∧
        ∀ e, ((fill r temporary destination).perform w).2.disk.unlink temporary ≠ .ok e) := by
  obtain ⟨v, hdisk, hv⟩ := fill_reads r temporary destination w
  rw [← hdisk] at hfile
  obtain ⟨hfile', hto, hfrom⟩ := receive_fileAt r.reply.chunks hfile
  rw [hv, ← hdisk, perform_bind]
  rcases hreceive : (receive temporary r.reply.chunks).perform v with ⟨result, v'⟩
  rw [hreceive] at hfile' hto hfrom
  cases result with
  | error f => exact ⟨hfrom, fun hok => by cases hok⟩
  | ok u =>
      simp only [perform_change]
      cases hreplace : v'.disk.replace temporary destination with
      | error f => exact ⟨hfrom, fun hok => by cases hok⟩
      | ok e =>
          obtain ⟨a, hmoved⟩ := moved_of_replace htemporary hdestination hnames hfile' hreplace
          exact ⟨hmoved.narrows.trans hfrom,
            fun _ => ⟨fun p hp => hmoved.aftermath (hto.isDirectory? hp), hmoved.gone⟩⟩

theorem abandon_narrows (destination : Path) (f : Failure) :
    (abandon destination f).Moves Motion.narrows := by
  unfold abandon
  cases f.isInterrupt with
  | true => exact .throw f
  | false =>
      simp only [Bool.false_eq_true, if_false]
      refine .bind (.log _ _ _) fun _ => .bind (Files.discard_narrows _) ?_
      intro _
      cases f.isNetwork with
      | true => exact .fail _
      | false => exact .throw f

theorem name_partialPath (directory destination : Path) (n : Nat) :
    (partialPath directory destination n).name = partialName destination.name n := by
  rw [partialPath_eq, Path.name]
  simp

/-- A file that was made is there, and no route came in or went away. -/
theorem fileAt_of_createNew {d e : Disk} {p : Path} (h : d.createNew p = .ok (some e)) :
    (∃ l, e.FileAt p l) ∧ d.RoutesIn e ∧ e.RoutesIn d := by
  obtain ⟨l, hfind, -, rfl⟩ := createNew_turned h
  obtain ⟨hfile, hto, hfrom⟩ := fileAt_put hfind (fun y hy => by cases hy) [] privateMode
  exact ⟨⟨l, hfile⟩, hto, hfrom⟩

/-- What comes after the private file is made: whatever happens, no route comes in. -/
theorem conclude_narrows {r : Response} {temporary destination : Path} {l : Location} {w : World}
    (htemporary : temporary.name ≠ ".") (hdestination : destination.name ≠ ".")
    (hnames : temporary.name ≠ destination.name) (hfile : w.disk.FileAt temporary l) :
    Motion.narrows.rel w ((conclude r temporary destination).perform w).2 := by
  have hfill : Motion.narrows.rel w ((attempt (fill r temporary destination)).perform w).2 :=
    (fill_lands htemporary hdestination hnames hfile).1
  have hsettle : Motion.narrows.rel w ((settle r temporary destination).perform w).2 := by
    refine Moves.bind_at hfill fun result => ?_
    cases result with
    | ok u => exact .pure _
    | error f => exact abandon_narrows destination f
  exact Moves.bind_at (x := attempt _) hsettle fun outcome =>
    .bind (close_still r).narrows fun _ => .bind (Files.discard_narrows _) fun _ => .give _

/-- **Keeping a response brings in no route**, if its directory is there. -/
theorem keep_narrows (r : Response) {destination : Path} (hname : destination.name ≠ ".") {w : World}
    (hdir : w.disk.isDirectory? destination.parent = .ok true) :
    ((keep r destination).perform w).2.disk.RoutesIn w.disk := by
  rw [keep_prepare, perform_bind]
  rcases hprepare : (prepare destination).perform w with ⟨result, v⟩
  cases prepare_prepared hprepare with
  | failed ensured =>
      -- where no private file can be made, nothing was done
      rw [Files.ensureDirectory_there hdir] at ensured
      obtain rfl := (Prod.mk.inj ensured).2
      exact .refl _
  | @made directory u e n ensured _ hnew =>
      rw [Files.ensureDirectory_there hdir] at ensured
      obtain rfl := (Prod.mk.inj ensured).2
      obtain ⟨⟨l, hfile⟩, -, hfrom⟩ := fileAt_of_createNew hnew
      have hname' := name_partialPath directory destination n
      have htail := conclude_narrows (r := r) (w := { w with disk := e })
        (hname' ▸ (isName_partialName _ n).1) hname (hname' ▸ partialName_ne _ n) hfile
      exact htail.trans hfrom

/-- What becomes of the directories when a body is moved to its destination. -/
theorem conclude_aftermath {r : Response} {temporary destination : Path} {l : Location}
    {w w' : World} (htemporary : temporary.name ≠ ".") (hdestination : destination.name ≠ ".")
    (hnames : temporary.name ≠ destination.name) (hfile : w.disk.FileAt temporary l)
    (hok : (conclude r temporary destination).perform w = (.ok (), w')) {p : Path}
    (hp : w.disk.isDirectory? p = .ok true) : Aftermath destination w'.disk p := by
  unfold conclude at hok
  obtain ⟨outcome, u, hsettle, h⟩ := bind_ok hok
  obtain ⟨_, v, hclose, h⟩ := bind_ok h
  obtain ⟨gone, v', hdiscard, h⟩ := bind_ok h
  obtain ⟨rfl, rfl⟩ := give_ok h
  obtain ⟨result, u', hfill, h⟩ := bind_ok (attempt_ok hsettle)
  have hlands := (fill_lands (r := r) htemporary hdestination hnames hfile).2
  rw [attempt_ok hfill] at hlands
  cases result with
  | error f =>
      obtain ⟨g, x, hg, -⟩ := abandon_spec destination f u'
      simp only at h
      rw [hg] at h
      cases h
  | ok _ =>
      obtain ⟨-, rfl⟩ := Prod.mk.inj h
      obtain ⟨hafter, hgone⟩ := hlands rfl
      have hclosed : v.disk = u'.disk := by rw [← (Prod.mk.inj hclose).2]
      -- the private file was moved, so there is nothing left to discard
      have hdisk : w'.disk = u'.disk := by
        have hdiscarded := Files.discard_disk temporary v
        rw [hdiscard, hclosed] at hdiscarded
        rcases hdiscarded with hunlink | ⟨-, hsame⟩
        · exact absurd hunlink (hgone _)
        · exact hsame
      rw [hdisk]
      exact hafter p hp

/-- **What becomes of the directories when a response is kept.** -/
theorem keep_aftermath {r : Response} {destination : Path} (hname : destination.name ≠ ".")
    {w w' : World} (hok : (keep r destination).perform w = (.ok (), w')) {p : Path}
    (hp : w.disk.isDirectory? p = .ok true) : Aftermath destination w'.disk p := by
  rw [keep_prepare] at hok
  obtain ⟨temporary, v, hprepare, hconclude⟩ := bind_ok hok
  have hgrown := Files.ensureDirectory_grows destination.parent w
  cases prepare_prepared hprepare with
  | @made directory u e n ensured _ hnew =>
      -- up to the private file directories only come in
      rw [ensured] at hgrown
      obtain ⟨⟨l, hfile⟩, hto, -⟩ := fileAt_of_createNew hnew
      have hname' := name_partialPath directory destination n
      exact conclude_aftermath (w := { u with disk := e })
        (hname' ▸ (isName_partialName _ n).1) hname (hname' ▸ partialName_ne _ n) hfile hconclude
        (hto.isDirectory? (hgrown.routesIn.isDirectory? hp))

/-- How a chain of requests ends: before a body comes in, with what stands at the destination at
most discarded, or with a response that is kept. -/
theorem follow_cases (c : Client) (h : Host) (o : Options) (destination : Path) (first : String)
    (limit : Int) (left : Nat) (url : String) {w w' : World} {out : Except Failure Unit}
    (hout : (follow c h o destination first limit left url).perform w = (out, w')) :
    ((∃ f, out = .error f) ∧ w'.disk.RoutesIn w.disk) ∨
      ∃ r v v', v.disk = w.disk ∧ (keep r destination).perform v = (out, v') ∧
        w'.disk = v'.disk := by
  -- induction on the requests that may still be sent; a hop that succeeds leaves the disk alone
  induction left generalizing url w with
  | zero =>
      obtain ⟨rfl, rfl⟩ := Prod.mk.inj hout
      exact .inl ⟨⟨_, rfl⟩, .refl _⟩
  | succ left ih =>
      cases follow_turn hout with
      | refused hask =>
          have hhop : (hop c h o destination url).Moves Motion.narrows :=
            hop_moves (fun _ _ _ => (send_still _).narrows) (Files.discard_narrows _)
          replace hhop := hhop w
          rw [hask] at hhop
          exact .inl ⟨⟨_, rfl⟩, hhop⟩
      | reported hanswered _ => exact .inl ⟨⟨_, rfl⟩, hanswered.disk ▸ .refl _⟩
      | passed hanswered _ _ _ _ _ hrest =>
          rcases ih _ hrest with ⟨herror, hroutes⟩ | ⟨r, v, v', hv, hkeep, hv'⟩
          · exact .inl ⟨herror, hanswered.disk ▸ hroutes⟩
          · exact .inr ⟨r, v, v', hv.trans hanswered.disk, hkeep, hv'⟩
      | kept r hanswered _ _ _ _ hkeeps journal =>
          exact .inr ⟨r, _, _, hanswered.disk, hkeeps, rfl⟩

end Stream

/-! ### A command of the shell -/

/-- The disk after the next command. -/
def World.afterCommand (w : World) : Disk :=
  match w.shellReplies with
  | [] => w.disk
  | reply :: _ => reply.writes.foldl deposit w.disk

namespace Session

theorem makeWay_grown (d : Disk) (p : Path) : d.Grown (makeWay d p) := by
  unfold makeWay
  split
  · next e he =>
    obtain ⟨l, -, hl, rfl⟩ := makeDirectory_grown he
    exact grown_put hl
  · exact .refl d

theorem foldl_makeWay_grown (d : Disk) (ps : List Path) : d.Grown (ps.foldl makeWay d) := by
  induction ps generalizing d with
  | nil => exact .refl d
  | cons p ps ih => exact (makeWay_grown d p).trans (ih _)

/-- A walk that stands behind what a path is located at. -/
theorem walk_of_locate {d : Disk} {follow : Bool} {p : Path} {q : Place}
    (h : d.locate follow p = .ok q) : d.walk follow linkLimit (d.start p) p.names = .ok q := by
  unfold locate at h
  simp only at h
  split at h
  · cases h
  · split at h
    · cases h
    · exact h

/-- **What an entry comes to that is put on the disk**, once the directories on its way are made. -/
inductive Deposited (d : Disk) (x : Deposit) : Disk → Prop where
  | nothing : Deposited d x d
  | directory (entry : x.entry = .directory) : Deposited d x (makeWay d x.path)
  /-- A file is written through links, so it comes where a file or nothing was. -/
  | file {l : Location} {b : List UInt8} {m : Nat} (entry : x.entry = .file b m)
      (noDirectory : d.get? l ≠ some .directory) (noLink : ∀ t, d.get? l ≠ some (.link t)) :
      Deposited d x (d.put l (.file b m))
  | link {l : Location} {t : String} (entry : x.entry = .link t) (vacant : d.get? l = none) :
      Deposited d x (d.put l (.link t))

theorem deposited (d : Disk) (x : Deposit) :
    Deposited ((waysTo x.path).foldl makeWay d) x (deposit d x) := by
  unfold deposit
  cases hx : x.entry with
  | directory => exact .directory hx
  | file b m =>
      simp only
      split
      · next q hlocate =>
        split
        · exact .nothing
        · next hdir =>
          have hne : q.entry ≠ some .directory := by simpa using hdir
          have hwalk := walk_of_locate hlocate
          have hentry := walk_entry hwalk hne
          exact .file hx (hentry ▸ hne) (hentry ▸ walk_true_ne_link hwalk)
      · exact .nothing
  | link t =>
      simp only
      split
      · next q hlocate =>
        split
        · next hnone =>
          have hq : q.entry = none := by simpa using hnone
          exact .link hx ((walk_entry (walk_of_locate hlocate) (by rw [hq]; simp)).trans hq)
        · exact .nothing
      · exact .nothing

/-- A link that is put where nothing was takes no route away. -/
theorem put_link_routesIn {d : Disk} {l : Location} (h : d.get? l = none) (t : String) :
    d.RoutesIn (d.put l (.link t)) := by
  have hne : l ≠ [] := by
    rintro rfl
    cases h
  refine ⟨rfl, fun {k y} hk hy => ?_⟩
  have hother : k ≠ l := by
    rintro rfl
    rw [h] at hk
    cases hk
  rw [get?_put _ _ _ _ hne, if_neg hother]
  exact hk

/-- **What a command leaves on the disk takes no route away.** -/
theorem deposit_routesIn (d : Disk) (x : Deposit) : d.RoutesIn (deposit d x) := by
  refine (foldl_makeWay_grown d (waysTo x.path)).routesIn.trans ?_
  have hdeposited := deposited d x
  generalize deposit d x = e at hdeposited ⊢
  cases hdeposited with
  | nothing => exact .refl _
  | directory _ => exact (makeWay_grown _ _).routesIn
  | file _ hdir hlink =>
      refine (turned_put hdir _ _).routesIn fun y hy => ?_
      cases y with
      | directory => exact absurd hy hdir
      | link t => exact absurd hy (hlink t)
      | file b m => exact ⟨b, m, rfl⟩
  | link _ hvacant => exact put_link_routesIn hvacant _

theorem foldl_deposit_routesIn (d : Disk) (xs : List Deposit) :
    d.RoutesIn (xs.foldl deposit d) := by
  induction xs generalizing d with
  | nil => exact .refl d
  | cons x xs ih => exact (deposit_routesIn d x).trans (ih _)

end Session

theorem World.routesIn_afterCommand (w : World) : w.disk.RoutesIn w.afterCommand := by
  unfold afterCommand
  split
  · exact .refl _
  · exact foldl_deposit_routesIn _ _

namespace Shell

/-- A command was run on the disk, and what it left at the destination may be discarded. -/
theorem launch_disk (executable : String) (destination : Path) (j : Script.Job) (w : World) :
    ((launch executable destination j).perform w).2.disk.RoutesIn w.afterCommand ∧
      (((launch executable destination j).perform w).1 = .ok () →
        ((launch executable destination j).perform w).2.disk = w.afterCommand) := by
  have hcommand : ((execute (command executable j)).perform w).2.disk = w.afterCommand := by
    rw [perform_execute, World.afterCommand]
    cases w.shellReplies <;> rfl
  unfold launch
  rw [perform_bind, perform_attempt]
  rcases hexecute : (execute (command executable j)).perform w with ⟨result, v⟩
  rw [hexecute] at hcommand
  simp only at hcommand ⊢
  have hkept : v.disk.RoutesIn w.afterCommand := hcommand ▸ .refl _
  -- a command that fails is reported after its destination is cleared
  have hfails (q : Problem) {x : Session Unit}
      (hx : x = Files.discard destination >>= fun _ => fail q) :
      (x.perform v).2.disk.RoutesIn w.afterCommand ∧
        ((x.perform v).1 = .ok () → (x.perform v).2.disk = w.afterCommand) := by
    have hmoves : x.Moves Motion.narrows :=
      hx ▸ .bind (Files.discard_narrows _) fun _ => .fail _
    refine ⟨RoutesIn.trans (hmoves v) hkept, fun hok => ?_⟩
    rw [hx, perform_bind] at hok
    split at hok <;> cases hok
  cases result with
  | error f =>
      simp only
      split
      · exact hfails _ rfl
      · exact ⟨hkept, fun hok => by cases hok⟩
  | ok answer =>
      obtain ⟨code, stderr⟩ := answer
      simp only
      split
      · exact hfails _ rfl
      · exact ⟨hkept, fun _ => hcommand⟩

end Shell

/-! ### A whole download -/

/-- The disk stays as it is, and no command is run. -/
def Motion.uncommanded : Motion where
  rel w w' := w'.disk = w.disk ∧ w'.shellReplies = w.shellReplies
  refl _ := ⟨rfl, rfl⟩
  trans h h' := ⟨h'.1.trans h.1, h'.2.trans h.2⟩
  journal _ _ := ⟨rfl, rfl⟩

theorem Session.send_uncommanded (q : Request) : (send q).Moves Motion.uncommanded := by
  intro w
  rw [perform_send]
  split <;> exact ⟨rfl, rfl⟩

theorem Release.locate_uncommanded (c : Client) (h : Host) (q : Query) :
    (locate c h q).Moves Motion.uncommanded :=
  locate_moves (Client.getText_moves fun _ _ _ => send_uncommanded _)

/-- The disk after the next command, if downloads are left to commands. -/
def Transport.afterCommand (t : Transport) (w : World) : Disk :=
  match t with
  | .stream .. => w.disk
  | .shell .. => w.afterCommand

/-- From a disk, the step ends without other routes than those of that disk, or of what the next
command makes of it. -/
def Session.Confined {α : Type} (t : Transport) (d e : Disk) (x : Session α) : Prop :=
  ∀ w : World, w.disk = d → t.afterCommand w = e →
    (x.perform w).2.disk.RoutesIn d ∨ (x.perform w).2.disk.RoutesIn e

namespace Session.Confined

variable {α β : Type} {t : Transport} {d e : Disk}

theorem bind {x : Session α} {k : α → Session β} (hx : x.Moves Motion.uncommanded)
    (hk : ∀ a, Confined t d e (k a)) : Confined t d e (x >>= k) := by
  intro w hd he
  obtain ⟨hdisk, hreplies⟩ := hx w
  rw [perform_bind]
  rcases hperform : x.perform w with ⟨result, v⟩
  rw [hperform] at hdisk hreplies
  cases result with
  | error f =>
      left
      change v.disk.RoutesIn d
      rw [show v.disk = d from hdisk.trans hd]
      exact .refl d
  | ok a =>
      refine hk a v (hdisk.trans hd) ?_
      rw [← he]
      cases t with
      | stream h c limit => exact hdisk
      | shell h executable =>
          change v.afterCommand = w.afterCommand
          rw [World.afterCommand, World.afterCommand, hreplies, hdisk]

end Session.Confined

namespace Shell

theorem download_confined (h : Host) (executable url : String) {destination : Path} (o : Options)
    {d e : Disk} (hdir : d.isDirectory? destination.parent = .ok true) :
    Confined (.shell h executable) d e (download h executable url destination o) := by
  intro w hd he
  rw [download_eq, perform_bind, Files.ensureDirectory_there (hd ▸ hdir)]
  exact Confined.bind (.log _ _ _) (fun _ => .bind (.give _) fun headers =>
    .bind (Proxy.forRequest_quiet h url o).moves fun proxy => .bind (.give _) fun credential w hd he =>
      .inr (he ▸ (launch_disk executable destination _ w).1)) w hd he

/-- A command that succeeds takes no route away. -/
theorem download_widens {h : Host} {executable url : String} {destination : Path} {o : Options}
    {w w' : World} (hok : (download h executable url destination o).perform w = (.ok (), w')) :
    w.disk.RoutesIn w'.disk := by
  rw [download_eq] at hok
  obtain ⟨_, w₁, h₁, hlog⟩ := bind_ok hok
  obtain ⟨_, w₂, h₂, hheaders⟩ := bind_ok hlog
  obtain ⟨headers, w₃, h₃, hproxy⟩ := bind_ok hheaders
  obtain ⟨proxy, w₄, h₄, hcredential⟩ := bind_ok hproxy
  obtain ⟨credential, w₅, h₅, hlaunched⟩ := bind_ok hcredential
  have hgrown := Files.ensureDirectory_grows destination.parent w
  rw [h₁] at hgrown
  have hquiet := (Proxy.forRequest_quiet h url o).moves (T := Motion.still) w₃
  rw [h₄] at hquiet
  -- only the directory is made before the command is run
  have hdisk : w₅.disk = w₁.disk := by
    have h₅₄ : w₅ = w₄ := (give_ok h₅).2
    have h₃₂ : w₃ = w₂ := (give_ok h₃).2
    have h₂₁ : w₂.disk = w₁.disk := by rw [← (Prod.mk.inj h₂).2]
    rw [h₅₄, ← h₂₁, ← h₃₂]
    exact hquiet
  have hlaunch := (launch_disk executable destination
    (jobOf url destination headers proxy credential) w₅).2
  rw [hlaunched] at hlaunch
  have hroutes := w₅.routesIn_afterCommand
  rw [← hlaunch rfl, hdisk] at hroutes
  exact hgrown.routesIn.trans hroutes

end Shell

namespace Installer

variable {i : Installer} {o : Order}

/-- **A download brings in no routes**, but for those that a command leaves, if its directory is
there. -/
theorem download_confined (hname : (i.assetPath o.version o.target).name ≠ ".") {w : World}
    (hdir : w.disk.isDirectory? (i.assetPath o.version o.target).parent = .ok true) :
    ((i.download o).perform w).2.disk.RoutesIn w.disk ∨
      ((i.download o).perform w).2.disk.RoutesIn (i.transport.afterCommand w) := by
  suffices hconfined : Confined i.transport w.disk (i.transport.afterCommand w) (i.download o) from
    hconfined w rfl rfl
  refine .bind (Release.locate_uncommanded _ _ _) fun asset => .bind (.log _ _ _) fun _ =>
    .bind (.log _ _ _) fun _ => ?_
  generalize w.disk = d at hdir ⊢
  cases i.transport with
  | shell h executable => exact Shell.download_confined h executable _ _ hdir
  | stream h c limit =>
      intro w hd he
      left
      rcases hout : (Transport.download (.stream h c limit) asset.url
        (i.assetPath o.version o.target) (i.assetOptions o)).perform w with ⟨out, w'⟩
      rcases Stream.follow_cases c h (i.assetOptions o) _ asset.url limit _ asset.url hout with
        ⟨-, hroutes⟩ | ⟨r, v, v', hv, hkeep, hw'⟩
      · exact hd ▸ hroutes
      · have hroutes := Stream.keep_narrows r hname (w := v) (by rw [hv, hd]; exact hdir)
        rw [hkeep, hv, hd] at hroutes
        simp only [hw']
        exact hroutes

/-- **What becomes of the directories when an asset is downloaded.** -/
theorem download_aftermath (hname : (i.assetPath o.version o.target).name ≠ ".") {w w' : World}
    (hok : (i.download o).perform w = (.ok (), w')) {p : Path}
    (hp : w.disk.isDirectory? p = .ok true) :
    Aftermath (i.assetPath o.version o.target) w'.disk p := by
  unfold download at hok
  obtain ⟨asset, w₁, h₁, hok⟩ := bind_ok hok
  unfold Transport.fetch at hok
  obtain ⟨_, w₂, h₂, hok⟩ := bind_ok hok
  obtain ⟨_, w₃, h₃, hok⟩ := bind_ok hok
  have hstill := Release.locate_still i.client i.host (i.query o) w
  rw [h₁] at hstill
  obtain rfl := (Prod.mk.inj h₂).2
  obtain rfl := (Prod.mk.inj h₃).2
  rw [← show w₁.disk = w.disk from hstill] at hp
  cases htransport : i.transport with
  | shell h executable =>
      rw [htransport] at hok
      exact .directory ((Shell.download_widens hok).isDirectory? hp)
  | stream h c limit =>
      rw [htransport] at hok
      rcases Stream.follow_cases c h (i.assetOptions o) _ asset.url limit _ asset.url hok with
        ⟨⟨f, herror⟩, -⟩ | ⟨r, v, v', hv, hkeep, hw'⟩
      · cases herror
      · rw [hw']
        exact Stream.keep_aftermath hname hkeep (by rw [hv]; exact hp)

end Installer

end ReleaseFetch
