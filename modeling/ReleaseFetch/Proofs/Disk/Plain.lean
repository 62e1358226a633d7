/-
**Walks on a disk without links.**

Where there are no links, a path leads where its names say: two dots take the name before them
back, and every other name is entered.  The walk only decides whether the place can be reached.
This module reads that off the walk, so that whatever is said of a path on such a disk can be said
of one location.

Main definitions:

* `ReleaseFetch.Disk.WellFormed` — every entry has a name and lies in a directory;
* `ReleaseFetch.Disk.Plain` — a well-formed disk without links;
* `ReleaseFetch.Disk.lead`, `ReleaseFetch.Disk.locationOf` — where names lead by themselves;
* `ReleaseFetch.Disk.Open` — a location that can hold a file.

Main results:

* `ReleaseFetch.Disk.locate_eq` — a walk ends where the names lead;
* `ReleaseFetch.Disk.locate_open` — a walk that does not end at a directory ends at an open
  location, and shows what stands there;
* `ReleaseFetch.Disk.Within.locate` — a walk that succeeds does so on every disk with the same
  directories and more.
-/

import ReleaseFetch.Disk.Access
import ReleaseFetch.Proofs.Disk.Walking

set_option autoImplicit false

namespace ReleaseFetch.Disk

/-! ### Disks -/

/-- Every entry has a name and lies in a directory. -/
structure WellFormed (d : Disk) : Prop where
  rooted : ∀ {n : String} {l : Location}, d.get? (n :: l) ≠ none → d.get? l = some .directory
  named : ∀ {n : String} {l : Location}, d.get? (n :: l) ≠ none → IsName n

/-- A well-formed disk without links. -/
structure Plain (d : Disk) : Prop extends WellFormed d where
  linkless : ∀ (l : Location) (t : String), d.get? l ≠ some (.link t)

/-- The directory above a directory is a directory; the root lies above itself. -/
theorem WellFormed.tail {d : Disk} (hd : d.WellFormed) {l : Location}
    (hl : d.get? l = some .directory) : d.get? l.tail = some .directory := by
  cases l with
  | nil => exact hl
  | cons n l =>
      have hne : d.get? (n :: l) ≠ none := by rw [hl]; simp
      exact hd.rooted hne

/-- All names on the way to an entry are names. -/
theorem WellFormed.names {d : Disk} (hd : d.WellFormed) {l : Location}
    (hl : d.get? l = some .directory) : ∀ n ∈ l, IsName n := by
  induction l with
  | nil => intro n hn; cases hn
  | cons m l ih =>
      have hne : d.get? (m :: l) ≠ none := by rw [hl]; simp
      intro n hn
      rcases List.mem_cons.1 hn with rfl | hn
      · exact hd.named hne
      · exact ih (hd.rooted hne) n hn

/-- On a disk without links an entry is a directory or a file. -/
theorem Plain.entry_cases {d : Disk} (hd : d.Plain) (l : Location) :
    d.get? l = none ∨ d.get? l = some .directory ∨ ∃ b m, d.get? l = some (.file b m) := by
  cases h : d.get? l with
  | none => exact .inl rfl
  | some e =>
      cases e with
      | directory => exact .inr (.inl rfl)
      | file b m => exact .inr (.inr ⟨b, m, rfl⟩)
      | link t => exact absurd h (hd.linkless l t)

/-- The entries of a disk say that it is plain. -/
def isPlain (d : Disk) : Bool :=
  d.entries.all fun x =>
    match x with
    | (n :: l, .directory) | (n :: l, .file _ _) =>
      n != "." && n != ".." && d.get? l == some .directory
    | _ => false

/-- An entry that stands somewhere is one of the entries. -/
theorem mem_of_get? {d : Disk} {n : String} {l : Location} {e : Entry}
    (h : d.get? (n :: l) = some e) : (n :: l, e) ∈ d.entries := by
  rw [get?, if_neg (List.cons_ne_nil n l), List.lookup_eq_some_iff] at h
  obtain ⟨before, after, heq, -⟩ := h
  simp [heq]

/-- **A disk whose entries say so is plain.** -/
theorem plain_of_isPlain {d : Disk} (h : d.isPlain = true) : d.Plain := by
  have hentry : ∀ {n : String} {l : Location} {e : Entry}, d.get? (n :: l) = some e →
      IsName n ∧ d.get? l = some .directory ∧ ∀ t, e ≠ .link t := by
    intro n l e he
    have hx := List.all_eq_true.1 h _ (mem_of_get? he)
    cases e <;> simp_all [IsName]
  refine ⟨⟨fun {n l} hne => ?_, fun {n l} hne => ?_⟩, fun l t ht => ?_⟩
  · obtain ⟨e, he⟩ := Option.ne_none_iff_exists'.1 hne
    exact (hentry he).2.1
  · obtain ⟨e, he⟩ := Option.ne_none_iff_exists'.1 hne
    exact (hentry he).1
  · cases l with
    | nil => cases ht
    | cons n l => exact (hentry ht).2.2 t rfl

/-! ### Names alone -/

/-- Where names lead from a location, by themselves. -/
def lead (l : Location) : List String → Location
  | [] => l
  | n :: rest =>
    if n = ".." then lead l.tail rest
    else if n = "." then lead l rest
    else lead (n :: l) rest

/-- Where the names of a path lead. -/
def locationOf (d : Disk) (p : Path) : Location := lead (d.start p) p.names

/-- A path starts and leads where the working directory says. -/
theorem start_of_here {d e : Disk} (h : e.here = d.here) (p : Path) : e.start p = d.start p := by
  cases hp : p.root <;> simp [start, hp, h]

theorem locationOf_of_here {d e : Disk} (h : e.here = d.here) (p : Path) :
    e.locationOf p = d.locationOf p := by
  rw [locationOf, locationOf, start_of_here h]

@[simp] theorem lead_nil (l : Location) : lead l [] = l := rfl

theorem lead_above (l : Location) (rest : List String) :
    lead l (".." :: rest) = lead l.tail rest := if_pos rfl

theorem lead_stay (l : Location) (rest : List String) : lead l ("." :: rest) = lead l rest :=
  (if_neg (by decide)).trans (if_pos rfl)

theorem lead_name {n : String} (hn : IsName n) (l : Location) (rest : List String) :
    lead l (n :: rest) = lead (n :: l) rest := by
  simp [lead, hn.1, hn.2]

theorem lead_append (l : Location) (xs ys : List String) :
    lead l (xs ++ ys) = lead (lead l xs) ys := by
  induction xs generalizing l with
  | nil => rfl
  | cons x xs ih =>
      simp only [List.cons_append, lead]
      split
      · exact ih l.tail
      · split
        · exact ih l
        · exact ih (x :: l)

/-- Names that only go down lead to themselves. -/
theorem lead_of_names {xs : List String} (hxs : ∀ n ∈ xs, IsName n) (l : Location) :
    lead l xs = xs.reverse ++ l := by
  induction xs generalizing l with
  | nil => rfl
  | cons x xs ih =>
      have hx := hxs x (by simp)
      rw [lead_name hx, ih (fun n hn => hxs n (List.mem_cons_of_mem _ hn))]
      simp

/-! ### The walk -/

/-- A location in a directory that is not itself one: a file can be put there. -/
structure Open (d : Disk) (l : Location) : Prop where
  parent : ∃ n m, l = n :: m ∧ IsName n ∧ d.get? m = some .directory
  vacant : d.get? l ≠ some .directory

theorem Open.ne_nil {d : Disk} {l : Location} (h : d.Open l) : l ≠ [] := by
  obtain ⟨n, m, rfl, -⟩ := h.parent
  simp

/-- From a directory, a walk over a disk without links ends where the names lead, and shows what
stands there. -/
theorem advance_eq {d : Disk} (hd : d.Plain) {follow : Bool} {names : List String} {l : Location}
    {s : Stop} (hl : d.get? l = some .directory) (h : d.advance follow l names = .ok s) :
    s = .place ⟨lead l names, d.get? (lead l names)⟩ := by
  -- induction on the steps; the walk stands in a directory all along
  rw [advance_eq_ok_iff] at h
  induction h with
  | here l => rw [lead_nil, hl]
  | above _ ih =>
      rw [lead_above]
      exact ih (hd.tail hl)
  | stay _ ih =>
      rw [lead_stay]
      exact ih hl
  | enter hn _ hdir _ ih =>
      rw [lead_name hn]
      exact ih hdir
  | link _ _ hlink _ => exact absurd hlink (hd.linkless _ _)
  | last hn _ _ _ => rw [lead_name hn, lead_nil]

/-- A walk that does not end at a directory ends at an open location of its last name. -/
theorem advance_open {d : Disk} (hd : d.Plain) {follow : Bool} {names : List String} {l : Location}
    {s : Stop} (hl : d.get? l = some .directory) (h : d.advance follow l names = .ok s)
    (hs : d.get? (lead l names) ≠ some .directory) :
    ∃ n m, lead l names = n :: m ∧ IsName n ∧ d.get? m = some .directory ∧
      names.getLast? = some n := by
  -- the last name of the rest is the last name of all, since the rest is not empty
  have hlast {n k : String} {rest : List String} (hk : rest.getLast? = some k) :
      (n :: rest).getLast? = some k := by
    rw [List.getLast?_cons, hk]
    rfl
  rw [advance_eq_ok_iff] at h
  induction h with
  | here l => exact absurd hl hs
  | above _ ih =>
      rw [lead_above] at hs ⊢
      obtain ⟨k, m, hkm, hk, hm, hr⟩ := ih (hd.tail hl) hs
      exact ⟨k, m, hkm, hk, hm, hlast hr⟩
  | stay _ ih =>
      rw [lead_stay] at hs ⊢
      obtain ⟨k, m, hkm, hk, hm, hr⟩ := ih hl hs
      exact ⟨k, m, hkm, hk, hm, hlast hr⟩
  | enter hn _ hdir _ ih =>
      rw [lead_name hn] at hs ⊢
      obtain ⟨k, m, hkm, hk, hm, hr⟩ := ih hdir hs
      exact ⟨k, m, hkm, hk, hm, hlast hr⟩
  | link _ _ hlink _ => exact absurd hlink (hd.linkless _ _)
  | @last l n hn _ _ _ => exact ⟨n, l, by rw [lead_name hn, lead_nil], hn, hl, rfl⟩

/-- More directories only let a walk get further, and it takes the same way. -/
theorem advance_mono {d e : Disk} (hd : d.Plain)
    (hdir : ∀ l, d.get? l = some .directory → e.get? l = some .directory)
    (he : e.Plain) {follow follow' : Bool} {names : List String} {l : Location} {s : Stop}
    (h : d.advance follow l names = .ok s) :
    ∃ s', e.advance follow' l names = .ok s' := by
  simp only [advance_eq_ok_iff] at h ⊢
  induction h with
  | here l => exact ⟨_, .here l⟩
  | above _ ih => exact ih.imp fun _ => .above
  | stay _ ih => exact ih.imp fun _ => .stay
  | enter hn hsize hx _ ih => exact ih.imp fun _ => .enter hn hsize (hdir _ hx)
  | link _ _ hlink _ => exact absurd hlink (hd.linkless _ _)
  | @last l n hn hsize _ _ =>
      by_cases hx : e.get? (n :: l) = some .directory
      · exact ⟨_, .enter hn hsize hx (.here _)⟩
      · exact ⟨_, .last hn hsize hx (.inr (he.linkless _))⟩

/-- A walk over a disk without links is a single advance. -/
theorem walk_eq {d : Disk} (hd : d.Plain) {follow : Bool} {links : Nat} {l : Location}
    {names : List String} (hl : d.get? l = some .directory) :
    d.walk follow links l names =
      match d.advance follow l names with
      | .error e => .error e
      | .ok _ => .ok ⟨lead l names, d.get? (lead l names)⟩ := by
  cases h : d.advance follow l names with
  | error e => cases links <;> simp only [walk, h]
  | ok s =>
      obtain rfl := advance_eq hd hl h
      cases links <;> simp only [walk, h]

/-! ### The place of a path -/

/-- What a path shows on a disk without links; a path without names always shows a directory. -/
def seen (d : Disk) (p : Path) : Option Entry :=
  if p.names = [] then some .directory else d.get? (d.locationOf p)

theorem seen_of_ne_directory {d : Disk} {p : Path} (h : d.seen p ≠ some .directory) :
    p.names ≠ [] ∧ d.seen p = d.get? (d.locationOf p) := by
  have hp : p.names ≠ [] := fun hp => h (by rw [seen, if_pos hp])
  exact ⟨hp, by rw [seen, if_neg hp]⟩

/-- **A walk ends where the names lead.** -/
theorem locate_eq {d : Disk} (hd : d.Plain) {follow : Bool} {p : Path} {place : Place}
    (h : d.locate follow p = .ok place) : place = ⟨d.locationOf p, d.seen p⟩ := by
  unfold locate at h
  simp only at h
  split at h
  · cases h
  · split at h
    · cases h
    · next hstart =>
      unfold seen locationOf
      cases hp : p.names with
      | nil =>
          rw [hp, linkLimit, walk] at h
          obtain rfl := Except.ok.inj h
          rw [if_pos rfl, lead_nil]
      | cons n rest =>
          have hl : d.get? (d.start p) = some .directory := by simpa [hp] using hstart
          rw [walk_eq hd hl, hp] at h
          split at h
          · cases h
          · obtain rfl := Except.ok.inj h
            rw [if_neg (List.cons_ne_nil n rest)]

/-- The directory that a walk with names starts from is there. -/
theorem locate_start {d : Disk} {follow : Bool} {p : Path} {place : Place}
    (h : d.locate follow p = .ok place) (hp : p.names ≠ []) :
    d.get? (d.start p) = some .directory := by
  unfold locate at h
  simp only at h
  split at h
  · cases h
  · split at h
    · cases h
    · next hstart => simpa [hp] using hstart

/-- A walk with names advances from where it starts. -/
theorem locate_advance {d : Disk} (hd : d.Plain) {follow : Bool} {p : Path} {place : Place}
    (h : d.locate follow p = .ok place) (hp : p.names ≠ []) :
    ∃ s, d.advance follow (d.start p) p.names = .ok s := by
  have hl := locate_start h hp
  unfold locate at h
  simp only at h
  split at h
  · cases h
  · split at h
    · cases h
    · rw [walk_eq hd hl] at h
      cases ha : d.advance follow (d.start p) p.names with
      | error e => rw [ha] at h; cases h
      | ok s => exact ⟨s, rfl⟩

/-- A walk that does not end at a directory ends at an open location, which has the last name of
the path. -/
theorem locate_open {d : Disk} (hd : d.Plain) {follow : Bool} {p : Path} {place : Place}
    (h : d.locate follow p = .ok place) (hplace : d.seen p ≠ some .directory) :
    d.Open (d.locationOf p) ∧ ∃ n, p.names.getLast? = some n ∧ IsName n := by
  obtain ⟨hp, hseen⟩ := seen_of_ne_directory hplace
  rw [hseen] at hplace
  obtain ⟨s, ha⟩ := locate_advance hd h hp
  obtain ⟨n, m, hnm, hn, hm, hlast⟩ := advance_open hd (locate_start h hp) ha hplace
  exact ⟨⟨⟨n, m, hnm, hn, hm⟩, hplace⟩, n, hlast, hn⟩

/-! ### Disks that grow -/

/-- The second disk has the directories of the first, seen from the same directory. -/
structure Within (d e : Disk) : Prop where
  here : e.here = d.here
  directory : ∀ {l : Location}, d.get? l = some .directory → e.get? l = some .directory

theorem Within.refl (d : Disk) : d.Within d := ⟨rfl, id⟩

theorem Within.trans {d e f : Disk} (h : d.Within e) (h' : e.Within f) : d.Within f :=
  ⟨h'.here.trans h.here, fun hl => h'.directory (h.directory hl)⟩

theorem Within.start {d e : Disk} (h : d.Within e) (p : Path) : e.start p = d.start p :=
  start_of_here h.here p

theorem Within.locationOf {d e : Disk} (h : d.Within e) (p : Path) :
    e.locationOf p = d.locationOf p := locationOf_of_here h.here p

/-- **What can be walked on a disk can be walked on every disk that has grown out of it**, and a
directory is still a directory there. -/
theorem Within.locate {d e : Disk} (h : d.Within e) (hd : d.Plain) (he : e.Plain)
    {follow follow' : Bool} {p : Path} {place : Place} (hp : d.locate follow p = .ok place) :
    e.locate follow' p = .ok ⟨d.locationOf p, e.seen p⟩ := by
  -- it is enough that the walk succeeds, since where it leads is known
  suffices hok : ∃ place', e.locate follow' p = .ok place' by
    obtain ⟨place', hplace'⟩ := hok
    rw [hplace', locate_eq he hplace', h.locationOf]
  have hlen : ¬Text.Utf8.size p.text > pathLimit := by
    intro hlen
    rw [Disk.locate, if_pos hlen] at hp
    cases hp
  cases hn : p.names with
  | nil =>
      refine ⟨⟨e.start p, some .directory⟩, ?_⟩
      unfold Disk.locate
      rw [if_neg hlen, hn]
      simp [linkLimit, walk, advance]
  | cons n rest =>
      have hne : p.names ≠ [] := by rw [hn]; simp
      have hl := locate_start hp hne
      obtain ⟨s, ha⟩ := locate_advance hd hp hne
      obtain ⟨s', ha'⟩ : ∃ s', e.advance follow' (d.start p) p.names = .ok s' :=
        advance_mono hd (fun _ => h.directory) he ha
      refine ⟨⟨lead (e.start p) p.names, e.get? (lead (e.start p) p.names)⟩, ?_⟩
      have hl' : e.get? (e.start p) = some .directory := by rw [h.start]; exact h.directory hl
      unfold Disk.locate
      rw [if_neg hlen, if_neg (by simp [hl']), walk_eq he hl', h.start, ha']

theorem Within.seen {d e : Disk} (h : d.Within e) {p : Path} (hp : d.seen p = some .directory) :
    e.seen p = some .directory := by
  unfold Disk.seen at *
  split
  · rfl
  · next hn =>
    rw [if_neg hn] at hp
    rw [h.locationOf]
    exact h.directory hp

end ReleaseFetch.Disk
