/-
**Changes to a disk with links.**

On a disk with links a change is read off the walk that it starts from: it puts a file where the
walk ends, takes away what is no directory, or makes a directory where nothing is.  The first two
let one entry give way, so no directory and no link comes in; the last one only adds.

Main definitions:

* `ReleaseFetch.Disk.Grown` — directories came in where nothing was;
* `ReleaseFetch.Motion.grows` — the motion of that.

Main results:

* `ReleaseFetch.Disk.isDirectory?_iff` — a directory is where the path leads to one;
* `ReleaseFetch.Disk.unlink_turned`, `ReleaseFetch.Disk.write_turned`,
  `ReleaseFetch.Disk.append_turned`, `ReleaseFetch.Disk.createNew_turned`,
  `ReleaseFetch.Disk.setMode_turned` — what each operation lets give way;
* `ReleaseFetch.Files.ensureDirectory_there` — making a directory does nothing where it is there;
* `ReleaseFetch.Files.ensureWithin_iff`, `ReleaseFetch.Files.isDirectory?_of_ensureDirectory`,
  `ReleaseFetch.Files.not_isDirectory?_of_ensureDirectory` — it succeeds exactly if the directory is
  there afterwards.
-/

import ReleaseFetch.Proofs.Disk.Placing
import ReleaseFetch.Proofs.Disk.Routes

set_option autoImplicit false

namespace ReleaseFetch

open Session

namespace Disk

variable {d e : Disk} {p : Path} {q : Place} {l : Location}

/-! ### Looking -/

theorem status_eq_ok_iff : d.status p = .ok q ↔ d.find true p = .ok q ∧ q.entry ≠ none := by
  unfold status
  cases h : d.find true p with
  | error f => simp
  | ok place =>
      obtain ⟨l, x⟩ := place
      cases x with
      | none =>
          simp only [Except.ok.injEq, reduceCtorEq, false_iff, not_and]
          rintro rfl hne
          exact hne rfl
      | some x =>
          simp only [Except.ok.injEq, iff_self_and]
          rintro rfl
          simp

theorem Agrees.status (h : d.Agrees e) (p : Path) : d.status p = e.status p := by
  unfold Disk.status
  rw [h.find]

theorem Agrees.ask (h : d.Agrees e) (p : Path) (question : Option Entry → Bool) :
    d.ask p question = e.ask p question := by
  unfold Disk.ask
  rw [h.status]

theorem Agrees.exists? (h : d.Agrees e) (p : Path) : d.exists? p = e.exists? p := h.ask p _

theorem Agrees.executable? (h : d.Agrees e) (directory : Path) (name : String) :
    d.executable? directory name = e.executable? directory name := by
  unfold Disk.executable?
  rw [h.exists?, h.exists?]

/-- A question is answered with yes where something is found of which the answer is yes. -/
theorem ask_eq_true_iff {question : Option Entry → Bool} :
    d.ask p question = .ok true ↔
      ∃ q, d.find true p = .ok q ∧ q.entry ≠ none ∧ question q.entry = true := by
  unfold ask
  cases h : d.status p with
  | ok place =>
      obtain ⟨hfind, hne⟩ := status_eq_ok_iff.1 h
      simp [hfind, hne]
  | error f =>
      have hno : ∀ q, d.find true p = .ok q → q.entry = none := by
        intro q hq
        refine Decidable.byContradiction fun hne => ?_
        rw [status_eq_ok_iff.2 ⟨hq, hne⟩] at h
        cases h
      constructor
      · intro hask
        simp only at hask
        split at hask <;> cases hask
      · rintro ⟨q, hq, hne, -⟩
        exact absurd (hno q hq) hne

/-- **A directory is where the path leads to one.** -/
theorem isDirectory?_iff :
    d.isDirectory? p = .ok true ↔ ∃ m, d.find true p = .ok ⟨m, some .directory⟩ := by
  rw [isDirectory?, ask_eq_true_iff]
  constructor
  · rintro ⟨⟨m, x⟩, hq, -, hx⟩
    obtain rfl : x = some .directory := by simpa using hx
    exact ⟨m, hq⟩
  · rintro ⟨m, hq⟩
    exact ⟨_, hq, by simp, rfl⟩

/-- Something is where the path leads to something. -/
theorem exists?_iff : d.exists? p = .ok true ↔ ∃ q, d.find true p = .ok q ∧ q.entry ≠ none := by
  rw [exists?, ask_eq_true_iff]
  simp

/-- A directory that is led to is found, if only as a link to it. -/
theorem find_false_of_directory {m : Location}
    (h : d.find true p = .ok ⟨m, some .directory⟩) :
    ∃ q, d.find false p = .ok q ∧ q.entry ≠ none := by
  rcases d.find_false p with ⟨m', t, hlink⟩ | heq
  · exact ⟨_, hlink, by simp⟩
  · exact ⟨_, heq.trans h, by simp⟩

/-- The directory of an entry that is found is there. -/
theorem isDirectory?_of_find_child {name : String} {follow : Bool}
    (hroot : (Path.ofText name).root = .here) (hnames : (Path.ofText name).names ≠ [])
    (h : d.find follow (p.child name) = .ok q) : d.isDirectory? p = .ok true := by
  rw [p.child_of_root hroot] at h
  exact isDirectory?_iff.2 (find_append hnames h)

/-! ### One entry gives way -/

namespace Turned

variable {a : Location} {y : Option Entry}

/-- What gives way brings in no directory and no link. -/
theorem narrows (h : Turned a y d e) : e.RoutesIn d := by
  refine ⟨h.here.symm, fun {l x} hl hx => ?_⟩
  by_cases ha : l = a
  · subst ha
    rw [h.shows] at hl
    obtain ⟨b, m, rfl⟩ := h.still x hl
    exact absurd rfl (hx b m)
  · rw [← h.other ha]
    exact hl

/-- A file that gives way, or nothing, takes no route away. -/
theorem routesIn (h : Turned a y d e) (hold : ∀ x, d.get? a = some x → ∃ b m, x = .file b m) :
    d.RoutesIn e := by
  refine ⟨h.here, fun {l x} hl hx => ?_⟩
  by_cases ha : l = a
  · subst ha
    obtain ⟨b, m, rfl⟩ := hold x hl
    exact absurd rfl (hx b m)
  · rw [h.other ha]
    exact hl

end Turned

theorem turned_put (hl : d.get? l ≠ some .directory) (b : List UInt8) (m : Nat) :
    Turned l (some (.file b m)) d (d.put l (.file b m)) := by
  have hne : l ≠ [] := fun hnil => hl (by rw [hnil, get?_root])
  refine ⟨rfl, fun {k} hk => ?_, ?_, fun x hx => ⟨b, m, (Option.some.inj hx).symm⟩, hl⟩
  · rw [get?_put _ _ _ _ hne, if_neg hk]
  · rw [get?_put _ _ _ _ hne, if_pos rfl]

theorem turned_erase (hl : d.get? l ≠ some .directory) : Turned l none d (d.erase l) := by
  have hne : l ≠ [] := fun hnil => hl (by rw [hnil, get?_root])
  refine ⟨rfl, fun {k} hk => ?_, ?_, fun x hx => absurd hx (by simp), hl⟩
  · rw [get?_erase _ _ _ hne, if_neg hk]
  · rw [get?_erase _ _ _ hne, if_pos rfl]

/-- What is removed is found first, and is no directory. -/
theorem unlink_turned (h : d.unlink p = .ok e) :
    ∃ q, d.find false p = .ok q ∧ q.entry ≠ none ∧ q.entry ≠ some .directory ∧
      Turned q.location none d e := by
  unfold unlink at h
  split at h
  · cases h
  · next q hfind =>
    split at h
    · cases h
    · cases h
    · next x hne hx =>
      have hdir : q.entry ≠ some .directory := by
        rw [hx]
        exact fun heq => hne (Option.some.inj heq)
      obtain rfl := Except.ok.inj h
      refine ⟨q, hfind, by simp [hx], hdir, turned_erase ?_⟩
      rw [find_entry hfind hdir]
      exact hdir

/-- What stands where a file can be written: a file, or nothing. -/
structure Writable (d : Disk) (p : Path) (l : Location) : Prop where
  found : d.find true p = .ok ⟨l, d.get? l⟩
  old : ∀ x, d.get? l = some x → ∃ b m, x = .file b m

theorem Writable.vacant (h : d.Writable p l) : d.get? l ≠ some .directory := by
  intro hdir
  obtain ⟨b, m, hx⟩ := h.old _ hdir
  cases hx

theorem write_turned {b : List UInt8} (h : d.write p b = .ok e) :
    ∃ l m, d.Writable p l ∧ e = d.put l (.file b m) := by
  unfold write at h
  split at h
  · cases h
  · next q hfind =>
    obtain ⟨l, x⟩ := q
    split at h
    · next hx =>
      have hl : d.get? l = none := (find_entry hfind (by rw [hx]; simp)).trans hx
      rw [show x = d.get? l from hx.trans hl.symm] at hfind
      refine ⟨l, fileMode, ⟨hfind, fun y hy => ?_⟩, (Except.ok.inj h).symm⟩
      rw [hl] at hy
      cases hy
    · next b' m hx =>
      have hl : d.get? l = some (.file b' m) := (find_entry hfind (by rw [hx]; simp)).trans hx
      rw [show x = d.get? l from hx.trans hl.symm] at hfind
      refine ⟨l, m, ⟨hfind, fun y hy => ?_⟩, (Except.ok.inj h).symm⟩
      rw [hl] at hy
      exact ⟨b', m, (Option.some.inj hy).symm⟩
    · cases h

theorem append_turned {more : List UInt8} (h : d.append p more = .ok e) :
    ∃ l b m, d.find true p = .ok ⟨l, some (.file b m)⟩ ∧ d.get? l = some (.file b m) ∧
      e = d.put l (.file (b ++ more) m) := by
  unfold append at h
  split at h
  · cases h
  · next q hstatus =>
    obtain ⟨hfind, -⟩ := status_eq_ok_iff.1 hstatus
    split at h
    · next b m hx =>
      obtain ⟨l, x⟩ := q
      obtain rfl : x = some (.file b m) := hx
      exact ⟨l, b, m, hfind, find_entry hfind (by simp), (Except.ok.inj h).symm⟩
    · cases h

theorem createNew_turned (h : d.createNew p = .ok (some e)) :
    ∃ l, d.find false p = .ok ⟨l, none⟩ ∧ d.get? l = none ∧
      e = d.put l (.file [] privateMode) := by
  unfold createNew at h
  split at h
  · cases h
  · next q hfind =>
    obtain ⟨l, x⟩ := q
    split at h
    · next hx =>
      obtain rfl : x = none := hx
      exact ⟨l, hfind, find_entry hfind (by simp),
        (Option.some.inj (Except.ok.inj h)).symm⟩
    · cases Except.ok.inj h

/-- The mode of a file is set where the path leads to it; nothing else has one. -/
theorem setMode_turned {mode : Nat} (h : d.setMode p mode = .ok e) :
    e = d ∨ ∃ l b m, d.find true p = .ok ⟨l, some (.file b m)⟩ ∧ d.get? l = some (.file b m) ∧
      e = d.put l (.file b mode) := by
  unfold setMode at h
  split at h
  · cases h
  · next q hstatus =>
    obtain ⟨hfind, -⟩ := status_eq_ok_iff.1 hstatus
    split at h
    · next b m hx =>
      obtain ⟨l, x⟩ := q
      obtain rfl : x = some (.file b m) := hx
      exact .inr ⟨l, b, m, hfind, find_entry hfind (by simp), (Except.ok.inj h).symm⟩
    · exact .inl (Except.ok.inj h).symm

/-! ### Directories come in -/

/-- Directories came in where nothing was. -/
structure Grown (d e : Disk) : Prop where
  here : e.here = d.here
  kept : ∀ l, e.get? l = d.get? l ∨ d.get? l = none ∧ e.get? l = some .directory

namespace Grown

variable {f : Disk}

theorem refl (d : Disk) : d.Grown d := ⟨rfl, fun _ => .inl rfl⟩

theorem trans (h : d.Grown e) (h' : e.Grown f) : d.Grown f := by
  refine ⟨h'.here.trans h.here, fun l => ?_⟩
  rcases h'.kept l with h₁ | ⟨h₁, h₂⟩
  · rw [h₁]
    exact h.kept l
  · rcases h.kept l with h₃ | ⟨-, h₃⟩
    · exact .inr ⟨h₃ ▸ h₁, h₂⟩
    · rw [h₁] at h₃
      cases h₃

/-- What stood somewhere still does. -/
theorem some (h : d.Grown e) {x : Entry} (hx : d.get? l = some x) : e.get? l = Option.some x := by
  rcases h.kept l with h₁ | ⟨h₁, -⟩
  · rw [h₁, hx]
  · rw [hx] at h₁
    cases h₁

theorem routesIn (h : d.Grown e) : d.RoutesIn e := ⟨h.here, fun hl _ => h.some hl⟩

/-- **What was found is still found**; where nothing was there may be a directory by now. -/
theorem find (h : d.Grown e) {follow : Bool} (hf : d.find follow p = .ok q) :
    e.find follow p = .ok q ∨ q.entry = none ∧
      e.find follow p = .ok ⟨q.location, Option.some .directory⟩ := by
  by_cases hdir : q.entry = Option.some .directory
  · left
    have hon : q.on e = q := if_pos hdir
    rw [h.routesIn.find hf (.inr (by rw [hon, hdir]; simp)), hon]
  · have hentry := find_entry hf hdir
    have hon := Place.on_of_ne e hdir
    rcases h.kept q.location with hsame | ⟨hnone, hmade⟩
    · left
      -- a link at the end is not followed, or the walk would not have ended there
      have hlink : follow = false ∨ ∀ t, (q.on e).entry ≠ Option.some (.link t) := by
        cases follow with
        | false => exact .inl rfl
        | true =>
            refine .inr fun t ht => ?_
            rw [hon] at ht
            exact find_true_ne_link hf t (by rw [← hentry, ← hsame]; exact ht)
      rw [h.routesIn.find hf hlink, hon, hsame, hentry]
    · right
      refine ⟨hentry ▸ hnone, ?_⟩
      rw [h.routesIn.find hf (.inr (by rw [hon, hmade]; simp)), hon, hmade]

end Grown

theorem grown_put (hl : d.get? l = none) : d.Grown (d.put l .directory) := by
  have hne : l ≠ [] := by
    rintro rfl
    cases hl
  refine ⟨rfl, fun k => ?_⟩
  rw [get?_put _ _ _ _ hne]
  split
  · next hk => exact .inr ⟨hk ▸ hl, rfl⟩
  · exact .inl rfl

/-- A directory is made where nothing is. -/
theorem makeDirectory_grown (h : d.makeDirectory p = .ok e) :
    ∃ l, d.find false p = .ok ⟨l, none⟩ ∧ d.get? l = none ∧ e = d.put l .directory := by
  unfold makeDirectory at h
  split at h
  · cases h
  · next q hfind =>
    obtain ⟨l, x⟩ := q
    split at h
    · next hx =>
      obtain rfl : x = none := hx
      exact ⟨l, hfind, find_entry hfind (by simp), (Except.ok.inj h).symm⟩
    · cases h

/-- Nothing is made where something is. -/
theorem makeDirectory_of_some (h : d.find false p = .ok q) (hq : q.entry ≠ none) :
    d.makeDirectory p = .error (failAt p .exists) := by
  unfold makeDirectory
  rw [h]
  cases hx : q.entry with
  | none => exact absurd hx hq
  | some x => simp [hx]

/-- **A directory that was made is there.** -/
theorem isDirectory?_of_makeDirectory (h : d.makeDirectory p = .ok e) :
    e.isDirectory? p = .ok true := by
  obtain ⟨l, hfind, hl, rfl⟩ := makeDirectory_grown h
  have hgrown := grown_put hl
  have htrue : d.find true p = .ok ⟨l, none⟩ := by
    rcases d.find_false p with ⟨m, t, hlink⟩ | heq
    · rw [hfind] at hlink
      cases hlink
    · exact heq.symm.trans hfind
  have hne : l ≠ [] := by
    rintro rfl
    cases hl
  refine isDirectory?_iff.2 ⟨l, ?_⟩
  rcases hgrown.find htrue with hsame | ⟨-, hmade⟩
  · have hentry := find_entry hsame (by simp)
    rw [get?_put _ _ _ _ hne, if_pos rfl] at hentry
    cases hentry
  · exact hmade

/-- A directory that is led to is led to on every disk with the same routes. -/
theorem RoutesIn.find_directory (h : d.RoutesIn e) {m : Location}
    (hm : d.find true p = .ok ⟨m, some .directory⟩) :
    e.find true p = .ok ⟨m, some .directory⟩ :=
  h.find hm (.inr (by simp [Place.on_directory]))

/-- A directory that is there is there on every disk with the same routes. -/
theorem RoutesIn.isDirectory? (h : d.RoutesIn e) (hp : d.isDirectory? p = .ok true) :
    e.isDirectory? p = .ok true := by
  obtain ⟨m, hm⟩ := isDirectory?_iff.1 hp
  exact isDirectory?_iff.2 ⟨m, h.find_directory hm⟩

/-- Where a path starts, a directory stays. -/
theorem start_of_grown (h : d.Grown e) (hp : d.get? (d.start p) = some .directory) :
    e.get? (e.start p) = some .directory := by
  rw [h.routesIn.start]
  exact h.some hp

/-- A failure to make a directory that is there says so. -/
theorem makeDirectory_there (h : d.isDirectory? p = .ok true) :
    d.makeDirectory p = .error (failAt p .exists) := by
  obtain ⟨m, hm⟩ := isDirectory?_iff.1 h
  obtain ⟨q, hq, hne⟩ := find_false_of_directory hm
  exact makeDirectory_of_some hq hne

/-- The directory above a directory is there. -/
theorem isDirectory?_parent (h : d.isDirectory? p = .ok true) :
    d.isDirectory? p.parent = .ok true := by
  rcases List.eq_nil_or_concat p.names with hnil | ⟨names, n, hnames⟩
  · have hp : p.parent = p := (Path.parent_eq_self_iff p).2 hnil
    rw [hp]
    exact h
  · rw [List.concat_eq_append] at hnames
    obtain ⟨m, hm⟩ := isDirectory?_iff.1 h
    have hp : p = ⟨p.root, names ++ [n]⟩ := by
      cases p
      exact congrArg _ hnames
    have hparent : p.parent = ⟨p.root, names⟩ := by
      rw [Path.parent, hnames, List.dropLast_concat]
    rw [hp] at hm
    rw [hparent]
    exact isDirectory?_iff.2 (find_append (by simp) hm)

end Disk

/-! ### Making directories -/

/-- Directories come in where nothing is. -/
def Motion.grows : Motion where
  rel w w' := w.disk.Grown w'.disk
  refl w := .refl w.disk
  trans h h' := h.trans h'
  journal w _ := .refl w.disk

namespace Files

open Disk

variable {p : Path} {f : Failure} {w : World}

theorem makeDirectory_grows (p : Path) : (change (·.makeDirectory p)).Moves Motion.grows := by
  intro w
  rw [perform_change]
  split
  · next e he =>
    obtain ⟨l, -, hl, rfl⟩ := makeDirectory_grown he
    exact grown_put hl
  · exact .refl _

/-- **Making a directory only lets directories come in.** -/
theorem ensureDirectory_grows (p : Path) : (ensureDirectory p).Moves Motion.grows :=
  ensureWithin_moves (A := fun _ => True) (fun _ _ => trivial) (fun p _ => makeDirectory_grows p)
    _ trivial

/-- A try that fails is followed by what its failure leads to. -/
theorem perform_tryDirectory_of_error {k : Failure → Session Unit}
    (h : w.disk.makeDirectory p = .error f) : (tryDirectory p k).perform w = (k f).perform w := by
  rw [tryDirectory, perform_bind, perform_attempt, perform_change, h]

/-- Where the first try says more than that something is missing, nothing is made. -/
theorem perform_ensureWithin_of_error (depth : Nat) (h : w.disk.makeDirectory p = .error f)
    (hf : isNoEntry f = false) :
    (ensureWithin depth p).perform w = (passIfThere p f).perform w := by
  cases depth with
  | zero =>
      rw [ensureWithin_zero, perform_tryDirectory_of_error h, passUnlessMissing, hf]
      rfl
  | succ depth =>
      rw [ensureWithin_succ, perform_tryDirectory_of_error h, hf]
      rfl

/-- Nothing is made either. -/
theorem ensureDirectory_of_error (h : w.disk.makeDirectory p = .error f)
    (hf : isNoEntry f = false) : ((ensureDirectory p).perform w).2 = w := by
  rw [ensureDirectory, perform_ensureWithin_of_error _ h hf, perform_passIfThere]
  split
  · split <;> rfl
  · rfl

/-- **Nothing is done where the directory is there.** -/
theorem ensureDirectory_there (h : w.disk.isDirectory? p = .ok true) :
    (ensureDirectory p).perform w = (.ok (), w) := by
  rw [ensureDirectory, perform_ensureWithin_of_error _ (makeDirectory_there h) rfl,
    perform_passIfThere, h]
  rfl

/-- A failure to make a directory passes exactly if it is there. -/
theorem passIfThere_iff (h : w.disk.makeDirectory p = .error f) :
    ((passIfThere p f).perform w).1 = .ok () ↔
      ((passIfThere p f).perform w).2.disk.isDirectory? p = .ok true := by
  have hsame := passIfThere_moves (T := Motion.still) p f w
  rw [hsame, perform_passIfThere]
  by_cases hf : f.isSystem = true
  · rw [if_pos hf]
    rcases w.disk.isDirectory? p with g | _ | _ <;> simp
  · rw [if_neg hf]
    refine iff_of_false (by simp) fun hdir => ?_
    -- what is there is said by the system
    rw [makeDirectory_there hdir] at h
    rw [← Except.error.inj h] at hf
    exact hf rfl

/-- A try to make a directory succeeds exactly if it is there afterwards, where its failure does. -/
theorem tryDirectory_iff {k : Failure → Session Unit} (w : World)
    (hk : ∀ f, w.disk.makeDirectory p = .error f → (((k f).perform w).1 = .ok () ↔
      ((k f).perform w).2.disk.isDirectory? p = .ok true)) :
    ((tryDirectory p k).perform w).1 = .ok () ↔
      ((tryDirectory p k).perform w).2.disk.isDirectory? p = .ok true := by
  cases h : w.disk.makeDirectory p with
  | ok e =>
      rw [tryDirectory, perform_bind, perform_attempt, perform_change, h]
      exact iff_of_true rfl (isDirectory?_of_makeDirectory h)
  | error f =>
      rw [perform_tryDirectory_of_error h]
      exact hk f h

/-- The last try: it fails if something is missing, and else passes if the directory is there. -/
theorem passUnlessMissing_iff (h : w.disk.makeDirectory p = .error f) :
    ((passUnlessMissing p f).perform w).1 = .ok () ↔
      ((passUnlessMissing p f).perform w).2.disk.isDirectory? p = .ok true := by
  unfold passUnlessMissing
  cases hf : isNoEntry f with
  | true =>
      refine iff_of_false (by simp) fun hdir => ?_
      have hdir' : w.disk.isDirectory? p = .ok true := hdir
      rw [makeDirectory_there hdir'] at h
      rw [← Except.error.inj h] at hf
      cases hf
  | false => exact passIfThere_iff h

theorem ensureWithin_iff (depth : Nat) (p : Path) (w : World) :
    ((ensureWithin depth p).perform w).1 = .ok () ↔
      ((ensureWithin depth p).perform w).2.disk.isDirectory? p = .ok true := by
  -- induction on the depth; where the parent cannot be made, the directory is not there either
  induction depth generalizing p w with
  | zero =>
      rw [ensureWithin_zero]
      exact tryDirectory_iff w fun f h => passUnlessMissing_iff h
  | succ depth ih =>
      rw [ensureWithin_succ]
      refine tryDirectory_iff w fun f h => ?_
      split
      · have hparent := ih p.parent w
        rw [perform_bind]
        rcases hmake : (ensureWithin depth p.parent).perform w with ⟨result, v⟩
        rw [hmake] at hparent
        cases result with
        | error g =>
            refine iff_of_false (by simp) fun hdir => ?_
            exact absurd (hparent.2 (isDirectory?_parent hdir)) (by simp)
        | ok u => exact tryDirectory_iff v fun g h => passUnlessMissing_iff h
      · exact passIfThere_iff h

/-- **A directory that was made is there.** -/
theorem isDirectory?_of_ensureDirectory {w' : World}
    (h : (ensureDirectory p).perform w = (.ok (), w')) : w'.disk.isDirectory? p = .ok true := by
  have hiff := ensureWithin_iff p.names.length p w
  rw [ensureDirectory] at h
  rw [h] at hiff
  exact hiff.1 rfl

/-- **A directory that could not be made is not there.** -/
theorem not_isDirectory?_of_ensureDirectory {w' : World}
    (h : (ensureDirectory p).perform w = (.error f, w')) : w'.disk.isDirectory? p ≠ .ok true := by
  have hiff := ensureWithin_iff p.names.length p w
  rw [ensureDirectory] at h
  rw [h] at hiff
  intro hdir
  exact absurd (hiff.2 hdir) (by simp)

end Files

end ReleaseFetch
