/-
**Names below a directory.**

A name without a slash names one entry of a directory.  The private file of a download gets a name
of its own beside the name of its destination, and its path is written from the root: this module
shows that both paths lead into the same directory, and that the two names differ.

Main definitions:

* `ReleaseFetch.IsEntryName` — a text that names one entry;
* `ReleaseFetch.Path.Readable` — a path as a text gives it.

Main results:

* `ReleaseFetch.Path.child_eq` — the path of an entry has one name more;
* `ReleaseFetch.Path.readable_ofText` — every path that is read from a text is readable;
* `ReleaseFetch.Disk.Stands.vacant_child` — an entry that is not found in a directory is not there;
* `ReleaseFetch.Stream.locationOf_partialPath` — a private file lies beside its destination.
-/

import ReleaseFetch.Transfer.Stream
import ReleaseFetch.Proofs.Disk.Edits

set_option autoImplicit false

namespace ReleaseFetch

open Disk

/-! ### Names of entries -/

/-- A text that names one entry of a directory. -/
structure IsEntryName (s : String) : Prop where
  noSlash : '/' ∉ s.toList
  ne_empty : s ≠ ""
  ne_dot : s ≠ "."
  ne_dots : s ≠ ".."

theorem IsEntryName.isName {s : String} (h : IsEntryName s) : IsName s := ⟨h.ne_dot, h.ne_dots⟩

namespace Text

/-- A text without the separator is one piece. -/
theorem pieces_of_not_mem {α : Type} [DecidableEq α] {sep : α} {cs : List α} (h : sep ∉ cs) :
    pieces sep cs = [cs] := by
  induction cs with
  | nil => rfl
  | cons c rest ih =>
      have hc : c ≠ sep := fun hc => h (hc ▸ List.mem_cons_self)
      have hrest : sep ∉ rest := fun hr => h (List.mem_cons_of_mem _ hr)
      rw [pieces, if_neg hc, ih hrest]

/-- A character other than the separator stands in a piece. -/
theorem exists_mem_pieces {α : Type} [DecidableEq α] {sep c : α} {cs : List α} (h : c ∈ cs)
    (hc : c ≠ sep) : ∃ piece ∈ pieces sep cs, c ∈ piece := by
  induction cs with
  | nil => cases h
  | cons x rest ih =>
      rw [pieces]
      by_cases hx : x = sep
      · rw [if_pos hx]
        have hrest : c ∈ rest := (List.mem_cons.1 h).resolve_left fun heq => hc (heq.trans hx)
        obtain ⟨piece, hpiece, hmem⟩ := ih hrest
        exact ⟨piece, List.mem_cons_of_mem _ hpiece, hmem⟩
      · rw [if_neg hx]
        cases hpieces : pieces sep rest with
        | nil => exact absurd hpieces (pieces_ne_nil sep rest)
        | cons p ps =>
            simp only
            rcases List.mem_cons.1 h with rfl | hrest
            · exact ⟨c :: p, by simp, by simp⟩
            · obtain ⟨piece, hpiece, hmem⟩ := ih hrest
              rw [hpieces] at hpiece
              rcases List.mem_cons.1 hpiece with rfl | hps
              · exact ⟨x :: piece, by simp, List.mem_cons_of_mem _ hmem⟩
              · exact ⟨piece, List.mem_cons_of_mem _ hps, hmem⟩

end Text

namespace Path

/-- A path as a text gives it: no name is empty or a dot. -/
def Readable (p : Path) : Prop := ∀ n ∈ p.names, n ≠ "" ∧ n ≠ "."

theorem readable_ofText (s : String) : (ofText s).Readable := by
  intro n hn
  simp only [ofText, namesOf, List.mem_filter, Bool.and_eq_true, bne_iff_ne] at hn
  exact hn.2

theorem rootOf_of_not_mem {cs : List Char} (h : '/' ∉ cs) : rootOf cs = .here := by
  cases cs with
  | nil => rfl
  | cons c rest =>
      have hc : c ≠ '/' := fun hc => h (hc ▸ List.mem_cons_self)
      unfold rootOf
      split
      · next heq => exact absurd (List.cons.inj heq).1 hc
      · next heq => exact absurd (List.cons.inj heq).1 hc
      · next heq => exact absurd (List.cons.inj heq).1 hc
      · rfl

/-- A text that does not start with a slash is read from the working directory. -/
theorem root_ofText {s : String} (h : s.toList.head? ≠ some '/') : (ofText s).root = .here := by
  change rootOf s.toList = .here
  cases hs : s.toList with
  | nil => rfl
  | cons c rest =>
      rw [hs] at h
      have hc : c ≠ '/' := by simpa using h
      unfold rootOf
      split <;> simp_all

/-- A character other than slashes and dots stands in a name. -/
theorem names_ofText_ne_nil {s : String} {c : Char} (h : c ∈ s.toList) (hslash : c ≠ '/')
    (hdot : c ≠ '.') : (ofText s).names ≠ [] := by
  obtain ⟨piece, hpiece, hmem⟩ := Text.exists_mem_pieces h hslash
  have hname : String.ofList piece ≠ "" ∧ String.ofList piece ≠ "." := by
    constructor
    · intro heq
      have hnil := congrArg String.toList heq
      rw [String.toList_ofList] at hnil
      rw [hnil] at hmem
      cases hmem
    · intro heq
      have hone := congrArg String.toList heq
      rw [String.toList_ofList] at hone
      rw [hone] at hmem
      exact hdot (by simpa using hmem)
  have hin : String.ofList piece ∈ (ofText s).names := by
    change _ ∈ List.filter _ _
    rw [List.mem_filter]
    exact ⟨List.mem_map_of_mem hpiece, by simpa using hname⟩
  exact List.ne_nil_of_mem hin

/-- A text without a slash is read as one name, or as none. -/
theorem ofText_of_noSlash {s : String} (h : '/' ∉ s.toList) :
    ofText s = ⟨.here, if s = "" ∨ s = "." then [] else [s]⟩ := by
  rw [ofText, rootOf_of_not_mem h, namesOf, Text.pieces_of_not_mem h]
  by_cases hs : s = "" ∨ s = "."
  · rw [if_pos hs]
    rcases hs with rfl | rfl <;> rfl
  · rw [if_neg hs]
    have hs' : s ≠ "" ∧ s ≠ "." := not_or.1 hs
    simp [hs'.1, hs'.2]

/-- **The path of an entry has one name more.** -/
theorem child_eq (p : Path) {name : String} (h : IsEntryName name) :
    p.child name = ⟨p.root, p.names ++ [name]⟩ := by
  have hs : ¬(name = "" ∨ name = ".") := not_or.2 ⟨h.ne_empty, h.ne_dot⟩
  rw [child, ofText_of_noSlash h.noSlash, if_neg hs]
  rfl

theorem parent_child (p : Path) {name : String} (h : IsEntryName name) :
    (p.child name).parent = p := by
  rw [child_eq p h, parent]
  simp

theorem name_child (p : Path) {name : String} (h : IsEntryName name) :
    (p.child name).name = name := by
  rw [child_eq p h, Path.name]
  simp

/-- The last name of a path comes after those of its parent. -/
theorem dropLast_append_name (p : Path) (hp : p.names ≠ []) :
    p.names.dropLast ++ [p.name] = p.names := by
  rw [Path.name, List.getLast?_eq_some_getLast hp, Option.getD_some, List.dropLast_concat_getLast]

theorem name_mem (p : Path) (hp : p.names ≠ []) : p.name ∈ p.names := by
  rw [← p.dropLast_append_name hp]
  exact List.mem_concat_self

/-- A path below a directory has more names. -/
theorem child_of_root (p : Path) {name : String} (h : (ofText name).root = .here) :
    p.child name = ⟨p.root, p.names ++ (ofText name).names⟩ := by
  rw [child, join, h]

theorem name_child_ne_dot (p : Path) {name : String} (h : (ofText name).names ≠ []) :
    (p.child name).name ≠ "." := by
  have hlast : (p.child name).name = (ofText name).names.getLast h := by
    rw [Path.name, child, join]
    split
    · rw [List.getLast?_append, List.getLast?_eq_some_getLast h]
      rfl
    · rw [List.getLast?_eq_some_getLast h]
      rfl
  rw [hlast]
  exact (readable_ofText name _ (List.getLast_mem h)).2

/-! ### From the root -/

theorem settleNames_isName {xs : List String} (hxs : ∀ n ∈ xs, n ≠ ".") {done : List String}
    (hdone : ∀ n ∈ done, IsName n) : ∀ n ∈ settleNames done xs, IsName n := by
  induction xs generalizing done with
  | nil =>
      intro n hn
      exact hdone n (List.mem_reverse.1 hn)
  | cons x xs ih =>
      have hrest : ∀ n ∈ xs, n ≠ "." := fun n hn => hxs n (List.mem_cons_of_mem _ hn)
      unfold settleNames
      split
      · exact ih hrest fun n hn => hdone n (List.mem_of_mem_tail hn)
      · next hx =>
        refine ih hrest ?_
        intro n hn
        rcases List.mem_cons.1 hn with rfl | hn
        · exact ⟨hxs n (by simp), hx⟩
        · exact hdone n hn

/-- Taking two dots back by name is where the names lead. -/
theorem lead_eq_settleNames {xs : List String} (hxs : ∀ n ∈ xs, n ≠ ".") (done : List String) :
    lead done xs = (settleNames done xs).reverse := by
  -- induction on the names, for every location that they may be settled from
  induction xs generalizing done with
  | nil => rw [settleNames, List.reverse_reverse, lead_nil]
  | cons x xs ih =>
      have hrest : ∀ n ∈ xs, n ≠ "." := fun n hn => hxs n (List.mem_cons_of_mem _ hn)
      unfold settleNames
      split
      · next hx =>
        rw [lead, if_pos hx]
        exact ih hrest done.tail
      · next hx =>
        rw [lead_name ⟨hxs x (by simp), hx⟩]
        exact ih hrest (x :: done)

/-- Settled names lead where the names led. -/
theorem lead_settleNames {xs : List String} (hxs : ∀ n ∈ xs, n ≠ ".") :
    lead [] (settleNames [] xs) = lead [] xs := by
  rw [lead_eq_settleNames hxs, lead_of_names (settleNames_isName hxs (by simp)), List.append_nil]

end Path

namespace Disk

theorem locationOf_concat (d : Disk) (r : Root) (names : List String) {n : String}
    (hn : IsName n) : d.locationOf ⟨r, names ++ [n]⟩ = n :: d.locationOf ⟨r, names⟩ := by
  change lead _ (names ++ [n]) = n :: lead _ names
  rw [lead_append, lead_name hn, lead_nil]
  rfl

/-- An entry of a directory stands below it. -/
theorem locationOf_child (d : Disk) (p : Path) {name : String} (h : IsEntryName name) :
    d.locationOf (p.child name) = name :: d.locationOf p := by
  rw [Path.child_eq p h]
  exact d.locationOf_concat p.root p.names h.isName

/-- A path and its parent lead to a location and the one above. -/
theorem locationOf_eq_cons (d : Disk) {p : Path} (hp : p.names ≠ []) (hname : IsName p.name) :
    d.locationOf p = p.name :: d.locationOf p.parent := by
  have hp' : p = ⟨p.root, p.names.dropLast ++ [p.name]⟩ := by
    rw [p.dropLast_append_name hp]
  conv => lhs; rw [hp']
  exact d.locationOf_concat p.root p.names.dropLast hname

end Disk

/-! ### Walking to an entry -/

namespace Disk

/-- A walk that ends at a directory goes on from there. -/
theorem advance_concat {d : Disk} (hd : d.Plain) {follow : Bool} {names : List String}
    {l : Location} {s : Stop} (hl : d.get? l = some .directory)
    (h : d.advance follow l names = .ok s) (hs : d.get? (lead l names) = some .directory)
    (n : String) :
    d.advance follow l (names ++ [n]) = d.advance follow (lead l names) [n] := by
  rw [advance_eq_ok_iff] at h
  induction h with
  | here l => rfl
  | above _ ih =>
      rw [lead_above] at hs ⊢
      rw [List.cons_append, advance_above]
      exact ih (hd.tail hl) hs
  | stay _ ih =>
      rw [lead_stay] at hs ⊢
      rw [List.cons_append, advance_stay]
      exact ih hl hs
  | enter hn hsize hdir _ ih =>
      rw [lead_name hn] at hs ⊢
      rw [List.cons_append, advance_enter hn hsize hdir]
      exact ih hdir hs
  | link _ _ hlink _ => exact absurd hlink (hd.linkless _ _)
  | last hn _ hdir _ =>
      -- the walk ended before a directory, and no name is left
      rw [lead_name hn, lead_nil] at hs
      exact absurd hs hdir

/-- An entry of a directory that is there can be found, unless its name is too long. -/
theorem Stands.find_child {d : Disk} {p : Path} (h : d.Stands p) (hd : d.Plain)
    (hdir : d.get? (d.locationOf p) = some .directory) {name : String} (hname : IsEntryName name)
    (hnul : '\x00' ∉ name.toList) (follow : Bool) :
    (∃ place, d.find follow (p.child name) = .ok place) ∨
      d.find follow (p.child name) = .error (failAt (p.child name) .nameTooLong) := by
  obtain ⟨place, hfind⟩ := h.found
  obtain ⟨hp, hlocate, -⟩ := find_ok hd hfind
  have hnul' : hasNul (p.child name) = false := by
    rw [Path.child_eq p hname]
    simp only [hasNul, List.any_append, Bool.or_eq_false_iff] at hp ⊢
    exact ⟨hp, by simpa using hnul⟩
  have hchild : (p.child name).names = p.names ++ [name] := by rw [Path.child_eq p hname]
  have hstart' : d.start (p.child name) = d.start p := by rw [Path.child_eq p hname]; rfl
  have hstart : d.get? (d.start p) = some .directory := by
    by_cases hn : p.names = []
    · rw [locationOf, hn, lead_nil] at hdir
      exact hdir
    · exact locate_start hlocate hn
  -- the walk reaches the directory first, and takes one more step from there
  have hwalk : d.advance follow (d.start p) (p.names ++ [name]) =
      d.advance follow (d.locationOf p) [name] := by
    by_cases hn : p.names = []
    · rw [locationOf, hn, lead_nil]
      rfl
    · obtain ⟨s, hs⟩ := locate_advance hd hlocate hn
      obtain ⟨s', hs'⟩ : ∃ s', d.advance follow (d.start p) p.names = .ok s' :=
        advance_mono hd (fun _ => id) hd hs
      exact advance_concat hd hstart hs' hdir name
  unfold find
  rw [hnul']
  simp only [Bool.false_eq_true, if_false]
  unfold locate
  simp only
  by_cases hlong : Text.Utf8.size (p.child name).text > pathLimit
  · rw [if_pos hlong]
    exact .inr rfl
  · rw [if_neg hlong, hstart', if_neg (by simp [hstart]), walk_eq hd hstart, hchild, hwalk]
    by_cases hsize : Text.Utf8.size name > nameLimit
    · rw [advance_long hname.isName hsize]
      exact .inr rfl
    · rw [advance_name hname.ne_dots hname.ne_dot hsize (.inr (hd.linkless _))]
      exact .inl ⟨_, rfl⟩

/-- **Where no entry is said to be in a directory that is there, none is.** -/
theorem Stands.vacant_child {d : Disk} {p : Path} (h : d.Stands p) (hd : d.Plain) {name : String}
    (hname : IsEntryName name) (hnul : '\x00' ∉ name.toList)
    (habsent : d.exists? (p.child name) = .ok false) :
    d.get? (name :: d.locationOf p) = none := by
  refine Decidable.byContradiction ?_
  intro hsome
  have hdir := hd.rooted hsome
  have hnames : (p.child name).names ≠ [] := by rw [Path.child_eq p hname]; simp
  obtain ⟨x, hx⟩ := Option.ne_none_iff_exists'.1 hsome
  have hseen : d.seen (p.child name) = some x := by
    rw [Disk.seen, if_neg hnames, d.locationOf_child p hname, hx]
  unfold exists? ask at habsent
  -- an entry that can be found is said to be there, and a name that is too long is an error
  rcases h.find_child hd hdir hname hnul true with ⟨place, hfind⟩ | hfind
  · obtain ⟨-, -, rfl⟩ := find_ok hd hfind
    rw [hseen] at hfind
    simp [status, hfind] at habsent
  · simp [status, hfind, saysAbsent, failAt] at habsent

end Disk

/-! ### Private files -/

namespace Stream

/-- The name of a private file. -/
def partialName (name : String) (n : Nat) : String := s!".{name}.{mark n}.part"

theorem partialPath_eq (directory destination : Path) (n : Nat) :
    partialPath directory destination n =
      ⟨directory.root, directory.names ++ [partialName destination.name n]⟩ := rfl

theorem partialName_length (name : String) (n : Nat) :
    name.length + 7 ≤ (partialName name n).length := by
  have h : (partialName name n).length = 1 + name.length + 1 + (mark n).length + 5 := by
    simp only [partialName, String.length_append]
    rfl
  omega

theorem isName_partialName (name : String) (n : Nat) : IsName (partialName name n) := by
  have h := partialName_length name n
  constructor
  · intro heq
    rw [heq] at h
    have : (".").length = 1 := rfl
    omega
  · intro heq
    rw [heq] at h
    have : ("..").length = 2 := rfl
    omega

theorem partialName_ne (name : String) (n : Nat) : partialName name n ≠ name := by
  intro heq
  have h := partialName_length name n
  rw [heq] at h
  omega

/-- An absolute path has no dots in it, and leads where it led before two dots were taken back. -/
theorem absolute_leads (d : Disk) (here p : Path) (hroot : (here.join p).root ≠ .here)
    (hdots : ∀ n ∈ (here.join p).names, n ≠ ".") :
    (∀ n ∈ (Path.absolute here p).names, IsName n) ∧
      d.locationOf (Path.absolute here p) = d.locationOf (here.join p) := by
  have hstart : ∀ q : Path, q.root = (here.join p).root → d.start q = [] := by
    intro q hq
    unfold Disk.start
    split
    · next hr => exact absurd (hq.symm.trans hr) hroot
    · rfl
  refine ⟨Path.settleNames_isName hdots (by simp), ?_⟩
  change lead (d.start _) (Path.settleNames [] _) = lead (d.start _) _
  rw [hstart (here.join p) rfl, hstart (here.absolute p) rfl, Path.lead_settleNames hdots]

/-- The directory of a private file is written from the root, and leads where the directory of its
destination does. -/
theorem partialDirectory_ok {d : Disk} (hd : d.Plain) {destination directory : Path}
    (hparent : destination.parent.Readable)
    (h : partialDirectory d destination = .ok directory) :
    (∀ n ∈ directory.names, IsName n) ∧
      d.locationOf directory = d.locationOf destination.parent := by
  have hdots : ∀ n ∈ destination.parent.names, n ≠ "." := fun n hn => (hparent n hn).2
  unfold partialDirectory at h
  split at h
  · next hroot =>
    -- the working directory is there, so its names can be written in front
    unfold workingPath at h
    split at h
    · next hhere =>
      obtain rfl := Except.ok.inj h
      have hhere' : ∀ n ∈ d.here.reverse, IsName n := fun n hn =>
        hd.names (by simpa using hhere) n (List.mem_reverse.1 hn)
      have hjoin : d.herePath.join destination.parent =
          ⟨.single, d.here.reverse ++ destination.parent.names⟩ := by
        rw [Path.join, Path.parent_root, hroot]
        rfl
      have hleads : d.locationOf (d.herePath.join destination.parent) =
          d.locationOf destination.parent := by
        rw [hjoin]
        change lead [] (d.here.reverse ++ _) = lead (d.start _) _
        rw [lead_append, lead_of_names hhere', List.reverse_reverse, List.append_nil, Disk.start,
          Path.parent_root, hroot]
      have habsolute := absolute_leads d d.herePath destination.parent
        (by simp [hjoin]) (by
          intro n hn
          rw [hjoin] at hn
          exact (List.mem_append.1 hn).elim (fun hn => (hhere' n hn).1) (hdots n))
      exact ⟨habsolute.1, habsolute.2.trans hleads⟩
    · cases h
  · next hroot =>
    -- a path from the root is its own absolute path, up to the names that are taken back
    obtain rfl := Except.ok.inj h
    have hjoin : d.herePath.join destination.parent = destination.parent := by
      unfold Path.join
      rw [Path.parent_root]
      split
      · next hr => exact absurd hr hroot
      · rfl
    have habsolute := absolute_leads d d.herePath destination.parent
      (by rw [hjoin]; exact hroot) (by rwa [hjoin])
    rwa [hjoin] at habsolute

/-- **A private file lies beside its destination.** -/
theorem locationOf_partialPath {d : Disk} (hd : d.Plain) {destination directory : Path}
    (hparent : destination.parent.Readable)
    (h : partialDirectory d destination = .ok directory) (n : Nat) :
    d.locationOf (partialPath directory destination n) =
      partialName destination.name n :: d.locationOf destination.parent := by
  rw [partialPath_eq, d.locationOf_concat _ _ (isName_partialName _ _)]
  exact congrArg _ (partialDirectory_ok hd hparent h).2

end Stream

end ReleaseFetch
