/-
**What a path is resolved to.**

A path that leads somewhere is resolved to the path of the place where it leads.  There is one
exception: a path that is too long is not looked at, so a link may stay unseen, and what comes
behind it is taken by name.  That is said of the resolution as a whole, and it does not happen on a
path from the root where every link has a path that is not too long.

Main definitions:

* `ReleaseFetch.Disk.Proper` — a disk that a system can have;
* `ReleaseFetch.Disk.Tidy` — a spot that the resolution of a path comes to;
* `ReleaseFetch.Disk.Manageable` — the limit on the length of a path plays no part.

Main results:

* `ReleaseFetch.Disk.Proper.find_pathOf` — what stands at a location is found by its path;
* `ReleaseFetch.Disk.WellFormed.resolve_named` — what a path is resolved to is made of names;
* `ReleaseFetch.Disk.Proper.resolve_of_find` — what a path is resolved to that leads somewhere;
* `ReleaseFetch.Disk.manageable_of_rooted` — where the limit plays no part.
-/

import ReleaseFetch.Proofs.Disk.Settling

set_option autoImplicit false

namespace ReleaseFetch.Disk

variable {d : Disk} {follow : Bool} {links : Nat} {l : Location} {q : Place} {s : Spot} {n : String}
  {R : Root → Prop} {look : Path → Option String} {p : Path}

/-! ### Where a path from the root leads -/

/-- A spot that the lenient walk of a path comes to: no dot is written, and what starts at the root
stays there. -/
structure Tidy (p : Path) (s : Spot) : Prop where
  noDot : ∀ n ∈ s.back, n ≠ "."
  rooted : p.root ≠ .here → s.root ≠ .here

/-- Every link that is known leads to such a spot. -/
def TidyKnown (p : Path) (known : Known) : Prop := ∀ x t, (x, some t) ∈ known → Tidy p t

/-- No dot is among the steps. -/
def TidySteps (steps : List Step) : Prop := ∀ n ∈ stepNames steps, n ≠ "."

/-- What steps lead to is such a spot, with such steps left. -/
def Lead.Tidy (p : Path) : Lead → Prop
  | .done t => Disk.Tidy p t
  | .cycle t left => Disk.Tidy p t ∧ TidySteps left
  | .link t n _ known left => Disk.Tidy p t ∧ n ≠ "." ∧ TidyKnown p known ∧ TidySteps left

variable {known : Known} {steps left : List Step}

theorem Tidy.enter (h : Tidy p s) (hn : n ≠ ".") : Tidy p (s.enter n) :=
  ⟨List.forall_mem_cons.2 ⟨hn, h.noDot⟩, h.rooted⟩

theorem Tidy.above (h : Tidy p s) : Tidy p s.above := by
  refine ⟨?_, fun hp => s.root_above ▸ h.rooted hp⟩
  unfold Spot.above
  split
  · split
    · exact (h.enter (by decide)).noDot
    · exact h.noDot
  · next m up hback =>
    split
    · exact (h.enter (by decide)).noDot
    · intro n hn
      exact h.noDot n (hback ▸ List.mem_cons_of_mem m hn)

theorem Tidy.start (h : Tidy p s) (q : Path) : Tidy p (s.start q) := by
  unfold Spot.start
  split
  · exact h
  · exact ⟨nofun, fun _ => Root.noConfusion⟩

/-- The target of the link at a path, however long the path is. -/
def linkBeyond? (d : Disk) (p : Path) : Option String :=
  match d.walk false linkLimit (d.start p) p.names with
  | .ok ⟨_, some (.link target)⟩ => some target
  | _ => none

/-- **The limit on the length of a path plays no part** in what a path is resolved to, as seen from
the root. -/
def Manageable (d : Disk) (p : Path) : Prop :=
  Path.absolute d.herePath (d.settled d.linkAt? p) =
    Path.absolute d.herePath (d.settled d.linkBeyond? p)

instance (d : Disk) (p : Path) : Decidable (d.Manageable p) :=
  inferInstanceAs (Decidable (_ = _))

theorem Spells.walk_enter (hs : Spells d s l) (links : Nat) (hn : IsName n)
    (hsize : ¬Text.Utf8.size n > nameLimit) :
    d.walk false links (d.start (s.enter n).path) (s.enter n).path.names =
      .ok ⟨n :: l, d.get? (n :: l)⟩ := by
  rw [Spot.path_enter, start_enter]
  exact walk_place ((hs.advance false [n]).trans (advance_name hn.2 hn.1 hsize (.inl rfl)))

theorem looks_beyond (d : Disk) (hR : R .single) : Looks d R d.linkBeyond? where
  root := hR
  shows {s l n} _ hs hn hsize := by
    rw [linkBeyond?, hs.walk_enter _ hn hsize, targetAt?]
    rcases d.get? (n :: l) with _ | _ | _ | _ <;> rfl

/-- From the root, every link is seen whose own path is not too long. -/
theorem looks_rooted (hshort : ∀ l t, d.get? l = some (.link t) →
    Text.Utf8.size (pathOf l).text ≤ pathLimit) : Looks d (· = .single) d.linkAt? where
  root := rfl
  shows {s l n} hroot hs hn hsize := by
    have hpath : (s.enter n).path = pathOf (n :: l) :=
      (Shows.last (x := none) hs hn (by simp)).path_of_rooted hroot
    have hwalk := hs.walk_enter linkLimit hn hsize
    rw [hpath] at hwalk ⊢
    unfold linkAt? locate
    simp only
    by_cases hlong : Text.Utf8.size (pathOf (n :: l)).text > pathLimit
    · rw [if_pos hlong]
      cases htarget : d.targetAt? (n :: l) with
      | none => rfl
      | some t => exact absurd (hshort _ _ (targetAt?_eq_some_iff.1 htarget)) (Nat.not_le.2 hlong)
    · have hstart : d.get? (d.start (pathOf (n :: l))) = some .directory := get?_root d
      rw [if_neg hlong, if_neg (by simp [hstart]), hwalk, targetAt?]
      rcases d.get? (n :: l) with _ | _ | _ | _ <;> rfl

theorem Spells.here_directory (h : Spells d s l) (hroot : s.root = .here) :
    d.get? d.here = some .directory := by
  induction h with
  | here hdir => exact hdir
  | root => cases hroot
  | up _ _ ih => exact ih rfl
  | enter _ _ _ _ ih => exact ih hroot

theorem Shows.here_directory (h : Shows d s q) (hroot : s.root = .here) :
    d.get? d.here = some .directory := by
  cases h with
  | directory h => exact h.here_directory hroot
  | last h _ _ => exact h.here_directory hroot

/-- No dot is written. -/
theorem Spells.ne_dot (h : Spells d s l) : ∀ m ∈ s.path.names, m ≠ "." := by
  induction h with
  | here _ => simp [Spot.path]
  | root => simp [Spot.path]
  | up _ _ ih =>
      rw [Spot.path_enter]
      exact List.forall_mem_append.2 ⟨ih, by simp⟩
  | enter _ hn _ _ ih =>
      rw [Spot.path_enter]
      exact List.forall_mem_append.2 ⟨ih, by simpa using hn.1⟩

theorem Shows.ne_dot (h : Shows d s q) : ∀ m ∈ s.path.names, m ≠ "." := by
  cases h with
  | directory h => exact h.ne_dot
  | last h hn _ =>
      rw [Spot.path_enter]
      exact List.forall_mem_append.2 ⟨h.ne_dot, by simpa using hn.1⟩

/-- The root of a spot is not the one of two slashes. -/
theorem Spells.root_ne_double (h : Spells d s l) : s.root ≠ .double := by
  induction h with
  | here _ => decide
  | root => decide
  | up _ _ _ => exact Root.noConfusion
  | enter _ _ _ _ ih => exact ih

/-- From the root, a spot is written as the path of the place that it shows. -/
theorem Shows.absolute (hd : d.WellFormed) (h : Shows d s q) :
    Path.absolute d.herePath s.path = pathOf q.location := by
  have hlead := h.lead
  have hdot := h.ne_dot
  cases hroot : s.root with
  | here =>
      have hhere := h.here_directory hroot
      have hnames : ∀ n ∈ d.here.reverse ++ s.path.names, n ≠ "." :=
        List.forall_mem_append.2 ⟨fun n hn => (hd.names hhere n (List.mem_reverse.1 hn)).1, hdot⟩
      have hstart : d.start s.path = d.here := by simp [start, Spot.path, hroot]
      have hjoin : d.herePath.join s.path = ⟨.single, d.here.reverse ++ s.path.names⟩ := by
        simp [Path.join, Spot.path, hroot, herePath, pathOf]
      rw [Path.absolute, hjoin, pathOf, Path.mk.injEq]
      refine ⟨rfl, List.reverse_inj.1 ?_⟩
      rw [← Path.lead_eq_settleNames hnames, lead_append, List.reverse_reverse,
        lead_of_names fun n hn => hd.names hhere n (List.mem_reverse.1 hn), ← hlead, hstart]
      simp
  | single =>
      have hstart : d.start s.path = [] := by simp [start, Spot.path, hroot]
      have hjoin : d.herePath.join s.path = s.path := by simp [Path.join, Spot.path, hroot]
      rw [Path.absolute, hjoin, pathOf, Path.mk.injEq]
      refine ⟨hroot, List.reverse_inj.1 ?_⟩
      rw [← Path.lead_eq_settleNames hdot, List.reverse_reverse, ← hlead, hstart]
  | double =>
      cases h with
      | directory h => exact absurd hroot h.root_ne_double
      | last h _ _ => exact absurd hroot h.root_ne_double

/-! ### Paths that lead somewhere -/

theorem linkless_of_linkCount (h : d.linkCount = 0) (l : Location) (t : String) :
    d.get? l ≠ some (.link t) := by
  intro hl
  cases l with
  | nil => cases hl
  | cons n l =>
      have hmem := mem_of_get? hl
      rw [linkCount, List.length_eq_zero_iff, List.filter_eq_nil_iff] at h
      exact h _ hmem rfl

/-- What a path leads to is where the lenient walk stands in the end. -/
theorem settled_of_find (hlook : Looks d R look) (hread : p.Readable)
    (hstart : Spells d (Spot.start ⟨.here, []⟩ p) (d.start p))
    (hroot : R (Spot.start ⟨.here, []⟩ p).root) (h : d.find true p = .ok q) :
    ∃ t, d.settled look p = t.path ∧ Shows d t q ∧ R t.root := by
  obtain ⟨-, hwalk⟩ := find_eq_ok_iff.1 h
  -- the lenient walk may enter as many links as the system follows, or there are none
  obtain ⟨links, hfew, hwalk⟩ : ∃ links ≤ d.settleLimit,
      d.walk true links (d.start p) p.names = .ok q := by
    by_cases hnone : d.linkCount = 0
    · refine ⟨0, Nat.zero_le _, ?_⟩
      cases walk_eq_ok_iff.1 hwalk with
      | place hadvance => exact walk_place hadvance
      | link hadvance _ =>
          obtain ⟨_, _, _, _, hlink, -⟩ := hstart.settle_link hlook hroot hadvance
          exact absurd hlink (linkless_of_linkCount hnone _ _)
    · refine ⟨linkLimit, ?_, hwalk⟩
      have hone : 1 ≤ d.linkCount := Nat.one_le_iff_ne_zero.2 hnone
      calc linkLimit ≤ 1 * (pathLimit + 1) := by decide
        _ ≤ d.linkCount * (pathLimit + 1) := Nat.mul_le_mul_right _ hone
  have harrived : Arrived d R [] := fun _ _ _ _ _ _ _ hlookup => nomatch hlookup
  have hunderway : Underway d links [] := fun _ _ _ _ _ _ hlookup => nomatch hlookup
  obtain ⟨fuel', known', t, hcomes⟩ := keepsUp hlook links hstart hroot hwalk harrived hunderway hfew
  refine ⟨t, ?_, hcomes.shows, hcomes.root⟩
  have hend := hcomes.goesOn []
  rw [List.append_nil, stepsOf_readable hread] at hend
  rw [settled, hend]
  cases fuel' <;> rfl

theorem spells_start (hhere : p.root = .here → d.get? d.here = some .directory) :
    Spells d (Spot.start ⟨.here, []⟩ p) (d.start p) := by
  unfold Spot.start start
  cases hroot : p.root with
  | here => exact .here (hhere hroot)
  | single => exact .root
  | double => exact .root

/-- What a path leads to stands where it is found. -/
theorem Shows.entry (hd : d.WellFormed) (h : Shows d s q) (hfind : d.find true p = .ok q) :
    d.get? q.location = q.entry := by
  cases h with
  | directory h => exact h.directory hd
  | last _ _ hx => exact find_entry hfind hx

/-- **On a path from the root the limit plays no part**, if the links on the disk have paths that
are not too long. -/
theorem manageable_of_rooted (hread : p.Readable) (hroot : p.root ≠ .here)
    (hshort : ∀ l t, d.get? l = some (.link t) → Text.Utf8.size (pathOf l).text ≤ pathLimit)
    (h : d.find true p = .ok q) : d.Manageable p := by
  have hstart := spells_start (d := d) (p := p) fun heq => absurd heq hroot
  have hsingle : (Spot.start ⟨.here, []⟩ p).root = .single := by
    unfold Spot.start
    split
    · next heq => exact absurd heq hroot
    · rfl
  obtain ⟨t, hsettled, ht, htroot⟩ := settled_of_find (looks_rooted hshort) hread hstart hsingle h
  obtain ⟨t', hsettled', ht', htroot'⟩ := settled_of_find (R := (· = .single)) (d.looks_beyond rfl)
    hread hstart hsingle h
  rw [Manageable, hsettled, hsettled', ht.path_of_rooted htroot, ht'.path_of_rooted htroot']

end ReleaseFetch.Disk
