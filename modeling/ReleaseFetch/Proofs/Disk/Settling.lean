/-
**The lenient walk keeps up with the system.**

A path is walked in two ways: the system follows its links one after the other, and gives up after
some; the lenient walk writes down a path without links, remembers where each link led, and never
gives up.  Where the system comes to a place, the lenient walk comes to the path of that place, as
long as it sees the links that are there.  It does not come back to a link that it is following: the
least number of links that the system has to follow for it would have to be less than itself.

Main definitions:

* `ReleaseFetch.Disk.Spells`, `ReleaseFetch.Disk.Shows` — the location of the lenient walk, and the
  place that it shows;
* `ReleaseFetch.Disk.Looks` — a view that shows the links that are there;
* `ReleaseFetch.Disk.Arrived`, `ReleaseFetch.Disk.Underway` — what is known of links;
* `ReleaseFetch.Disk.KeepsUp` — the lenient walk comes to a place wherever the system does.

Main results:

* `ReleaseFetch.Disk.walk_append` — the links that are followed on parts of the way;
* `ReleaseFetch.Disk.Spells.cross` — one link;
* `ReleaseFetch.Disk.keepsUp` — all names, by induction on the links that the system follows.
-/

import Mathlib.Data.Nat.Find
import ReleaseFetch.Proofs.Disk.Routes

set_option autoImplicit false

namespace ReleaseFetch.Disk

variable {d : Disk} {follow : Bool} {links c : Nat} {l : Location} {names : List String} {q : Place}

/-! ### The links that a walk follows -/

/-- More links may be followed. -/
theorem walk_le (h : d.walk follow links l names = .ok q) (hle : links ≤ c) :
    d.walk follow c l names = .ok q := by
  rw [walk_eq_ok_iff] at h ⊢
  induction h generalizing c with
  | place hs => exact .place hs
  | link hs _ ih =>
      obtain ⟨c, rfl⟩ : ∃ k, c = k + 1 := ⟨c - 1, by omega⟩
      exact .link hs (ih (Nat.le_of_succ_le_succ hle))

/-- A walk leads to one place, however many links may be followed. -/
theorem walk_unique {q' : Place} (h : d.walk follow links l names = .ok q)
    (h' : d.walk follow c l names = .ok q') : q = q' := by
  rcases Nat.le_total links c with hle | hle
  · exact Except.ok.inj ((walk_le h hle).symm.trans h')
  · exact Except.ok.inj (h.symm.trans (walk_le h' hle))

/-- A walk that comes to a place needs some least number of links. -/
theorem exists_least (h : d.walk follow links l names = .ok q) :
    ∃ j ≤ links, d.walk follow j l names = .ok q ∧
      ∀ i < j, ∀ q', d.walk follow i l names ≠ .ok q' := by
  classical
  have hsome : ∃ j, ∃ q', d.walk follow j l names = .ok q' := ⟨links, q, h⟩
  obtain ⟨q', hq'⟩ := Nat.find_spec hsome
  obtain rfl := walk_unique hq' h
  exact ⟨Nat.find hsome, Nat.find_min' hsome ⟨_, h⟩, hq', fun i hi q' hi' =>
    Nat.find_min hsome hi ⟨q', hi'⟩⟩

/-- With more names behind them, names lead to a directory that the walk goes on from, or to a
link. -/
theorem advance_append_ok {xs ys : List String} {s : Stop} (hys : ys ≠ [])
    (h : d.advance follow l (xs ++ ys) = .ok s) :
    (∃ m, d.advance true l xs = .ok (.place ⟨m, some .directory⟩) ∧
        d.advance follow m ys = .ok s) ∨
      ∃ directory target left, d.advance true l xs = .ok (.link directory target left) ∧
        s = .link directory target (left ++ ys) := by
  rw [advance_append d follow l xs hys] at h
  rcases hs : d.advance true l xs with err | ⟨m, _ | _ | _ | _⟩ | ⟨directory, target, left⟩
  · rw [hs] at h; cases h
  · rw [hs] at h; cases h
  · rw [hs] at h
    exact .inl ⟨m, rfl, h⟩
  · rw [hs] at h; cases h
  · rw [hs] at h; cases h
  · rw [hs] at h
    exact .inr ⟨directory, target, left, rfl, (Except.ok.inj h).symm⟩

/-- **A walk over more names is a walk to a directory and one from there**, and the links that they
follow add up. -/
theorem walk_append {xs ys : List String} (hys : ys ≠ [])
    (h : d.walk follow links l (xs ++ ys) = .ok q) :
    ∃ c k m, c + k = links ∧ d.walk true c l xs = .ok ⟨m, some .directory⟩ ∧
      d.walk follow k m ys = .ok q := by
  rw [walk_eq_ok_iff] at h
  generalize hnames : xs ++ ys = names at h
  -- induction on the walk; the names in front grow with every target
  induction h generalizing xs with
  | @place links l names hs =>
      subst hnames
      rcases advance_append_ok hys hs with ⟨m, hfront, hback⟩ | ⟨directory, target, left, -, hlink⟩
      · exact ⟨0, links, m, Nat.zero_add _, walk_place hfront, walk_place hback⟩
      · cases hlink
  | @link links l directory names left target hs hrest ih =>
      subst hnames
      rcases advance_append_ok hys hs with ⟨m, hfront, hback⟩ |
        ⟨directory', target', left', hfront, hlink⟩
      · exact ⟨0, links + 1, m, Nat.zero_add _, walk_place hfront,
          walk_eq_ok_iff.2 (.link hback hrest)⟩
      · obtain ⟨rfl, rfl, rfl⟩ := Stop.link.inj hlink
        obtain ⟨c, k, m, hsum, hwalk, hback⟩ := ih (List.append_assoc _ _ _)
        exact ⟨c + 1, k, m, by omega, (walk_link_succ hfront).trans hwalk, hback⟩

/-! ### Where the lenient walk stands -/

theorem Spot.path_enter (s : Spot) (n : String) :
    (s.enter n).path.names = s.path.names ++ [n] := List.reverse_cons

theorem start_enter (d : Disk) (s : Spot) (n : String) :
    d.start (s.enter n).path = d.start s.path := rfl

/-- **The location of the lenient walk**, which stands in a directory and came there over
directories. -/
inductive Spells (d : Disk) : Spot → Location → Prop
  | here (h : d.get? d.here = some .directory) : Spells d ⟨.here, []⟩ d.here
  | root : Spells d ⟨.single, []⟩ []
  | up {back : List String} {l : Location} (h : Spells d ⟨.here, back⟩ l)
      (hback : ∀ n ∈ back, n = "..") : Spells d (Spot.enter ⟨.here, back⟩ "..") l.tail
  | enter {s : Spot} {n : String} {l : Location} (h : Spells d s l) (hn : IsName n)
      (hsize : ¬Text.Utf8.size n > nameLimit) (hdir : d.get? (n :: l) = some .directory) :
      Spells d (s.enter n) (n :: l)

namespace Spells

variable {s t : Spot} {n : String}

theorem directory (h : Spells d s l) (hd : d.WellFormed) : d.get? l = some .directory := by
  induction h with
  | here hdir => exact hdir
  | root => exact get?_root d
  | up _ _ ih => exact hd.tail ih
  | enter _ _ _ hdir _ => exact hdir

/-- The path that is written leads to the location, and more names lead on from there. -/
theorem advance (h : Spells d s l) (follow : Bool) (more : List String) :
    d.advance follow (d.start s.path) (s.path.names ++ more) = d.advance follow l more := by
  induction h generalizing more with
  | here _ => rfl
  | root => rfl
  | up _ _ ih =>
      rw [Spot.path_enter, List.append_assoc]
      exact ih (".." :: more)
  | enter _ hn hsize hdir ih =>
      rw [Spot.path_enter, List.append_assoc]
      refine (ih (_ :: more)).trans ?_
      rw [Disk.advance, if_neg hn.2, if_neg hn.1, if_neg hsize, hdir]

/-- By its names alone, the path leads there too. -/
theorem lead (h : Spells d s l) : lead (d.start s.path) s.path.names = l := by
  induction h with
  | here _ => rfl
  | root => rfl
  | up _ _ ih =>
      rw [Spot.path_enter, lead_append, start_enter, ih]
      rfl
  | enter _ hn _ _ ih =>
      rw [Spot.path_enter, lead_append, start_enter, ih]
      exact lead_name hn _ _

theorem unique {m : Location} (h : Spells d s l) (h' : Spells d s m) : l = m :=
  h.lead.symm.trans h'.lead

theorem above (h : Spells d s l) : Spells d s.above l.tail := by
  cases h with
  | here hdir => exact .up (.here hdir) (by simp)
  | root => exact .root
  | up h hback => exact .up (.up h hback) (by simpa using hback)
  | @enter s n l h hn _ _ =>
      have habove : (s.enter n).above = s := by simp [Spot.above, Spot.enter, hn.2]
      rw [habove]
      exact h

theorem start (h : Spells d s l) (p : Path) : Spells d (s.start p) (linkStart l p) := by
  unfold Spot.start linkStart
  cases p.root with
  | here => exact h
  | single => exact .root
  | double => exact .root

/-- A path from the root is the path of the location. -/
theorem path_of_rooted (h : Spells d s l) (hroot : s.root = .single) : s.path = pathOf l := by
  suffices hback : s.back = l by rw [Spot.path, hroot, hback]; rfl
  induction h with
  | here _ => cases hroot
  | root => rfl
  | up _ _ _ => cases hroot
  | enter _ _ _ _ ih => exact congrArg _ (ih hroot)

end Spells

/-- The lenient walk stands at a place: in a directory, or at the last name of a path. -/
inductive Shows (d : Disk) : Spot → Place → Prop
  | directory {s : Spot} {l : Location} (h : Spells d s l) : Shows d s ⟨l, some .directory⟩
  | last {s : Spot} {n : String} {l : Location} {x : Option Entry} (h : Spells d s l)
      (hn : IsName n) (hx : x ≠ some .directory) : Shows d (s.enter n) ⟨n :: l, x⟩

theorem Shows.spells {s : Spot} (h : Shows d s ⟨l, some .directory⟩) : Spells d s l := by
  cases h with
  | directory h => exact h
  | last _ _ hx => exact absurd rfl hx

theorem Shows.lead {s : Spot} (h : Shows d s q) :
    lead (d.start s.path) s.path.names = q.location := by
  cases h with
  | directory h => exact h.lead
  | last h hn _ =>
      rw [Spot.path_enter, lead_append, start_enter, h.lead]
      exact lead_name hn _ _

theorem Shows.path_of_rooted {s : Spot} (h : Shows d s q) (hroot : s.root = .single) :
    s.path = pathOf q.location := by
  cases h with
  | directory h => exact h.path_of_rooted hroot
  | @last s n l x h _ _ =>
      have hpath := congrArg Path.names (h.path_of_rooted hroot)
      simp only [Spot.path, pathOf, List.reverse_inj] at hpath
      rw [Spot.path, Spot.enter, hpath]
      exact congrArg (Path.mk · _) hroot

/-! ### Looking for links -/

/-- The target of the link at a location. -/
def targetAt? (d : Disk) (l : Location) : Option String :=
  match d.get? l with
  | some (.link target) => some target
  | _ => none

theorem targetAt?_eq_some_iff {target : String} :
    d.targetAt? l = some target ↔ d.get? l = some (.link target) := by
  unfold targetAt?
  split <;> simp_all

/-- **The links that are there are seen**, from spots whose root the walk may have. -/
structure Looks (d : Disk) (R : Root → Prop) (look : Path → Option String) : Prop where
  root : R .single
  shows : ∀ {s : Spot} {l : Location} {n : String}, R s.root → Spells d s l → IsName n →
    ¬Text.Utf8.size n > nameLimit → look (s.enter n).path = d.targetAt? (n :: l)

variable {R : Root → Prop} {look : Path → Option String} {known : Known} {s t : Spot} {n : String}

/-- The steps that names stand for. -/
def stepsOf (names : List String) : List Step := (names.filter (· != ".")).map .enter

theorem stepsOf_append (xs ys : List String) : stepsOf (xs ++ ys) = stepsOf xs ++ stepsOf ys := by
  rw [stepsOf, List.filter_append, List.map_append]
  rfl

theorem stepsOf_readable {p : Path} (h : p.Readable) : stepsOf p.names = p.names.map .enter := by
  have hall : p.names.filter (· != ".") = p.names :=
    List.filter_eq_self.2 fun n hn => by simpa using (h n hn).2
  rw [stepsOf, hall]

/-- The dot behind a target is no step. -/
theorem stepsOf_targetNames (target : String) :
    stepsOf (targetNames target) = (Path.ofText target).names.map .enter := by
  have hread := stepsOf_readable (Path.readable_ofText target)
  unfold targetNames
  split
  · rw [stepsOf_append, hread]
    exact List.append_nil _
  · rw [stepsOf_append, hread]
    exact List.append_nil _
  · exact hread

/-- Over a name that is no link the walk goes on. -/
theorem settle_name (hn : n ≠ "..") (hlook : look (s.enter n).path = none) (rest : List Step) :
    settle look known s (.enter n :: rest) = settle look known (s.enter n) rest := by
  rw [settle, if_neg hn, hlook]

theorem settle_above (rest : List Step) :
    settle look known s (.enter ".." :: rest) = settle look known s.above rest := by
  rw [settle, if_pos rfl]

theorem stepsOf_name (hn : n ≠ ".") (names : List String) :
    stepsOf (n :: names) = .enter n :: stepsOf names := by
  simp [stepsOf, hn]

theorem Spot.root_above (s : Spot) : s.above.root = s.root := by
  unfold Spot.above
  split
  · split <;> rfl
  · split <;> rfl

theorem Looks.start (hlook : Looks d R look) (hs : R s.root) (p : Path) : R (s.start p).root := by
  unfold Spot.start
  split
  · exact hs
  · exact hlook.root

/-- Where the system comes to a place over no link, the lenient walk comes there too. -/
theorem Spells.settle_place (hs : Spells d s l) (hlook : Looks d R look) (hroot : R s.root)
    (h : d.advance true l names = .ok (.place q)) :
    ∃ t, Shows d t q ∧ R t.root ∧ ∀ known rest,
      settle look known s (stepsOf names ++ rest) = settle look known t rest := by
  rw [advance_eq_ok_iff] at h
  generalize hstop : Stop.place q = stop at h
  -- what is no link is entered or ends the walk
  have hgoes {s : Spot} {l : Location} {n : String} (hs : Spells d s l) (hroot : R s.root)
      (hn : IsName n) (hsize : ¬Text.Utf8.size n > nameLimit)
      (hlink : ∀ t, d.get? (n :: l) ≠ some (.link t)) (names : List String) (known : Known)
      (rest : List Step) : settle look known s (stepsOf (n :: names) ++ rest) =
        settle look known (s.enter n) (stepsOf names ++ rest) := by
    have hnone : look (s.enter n).path = none := by
      rw [hlook.shows hroot hs hn hsize, targetAt?]
      split
      · next t ht => exact absurd ht (hlink t)
      · rfl
    rw [stepsOf_name hn.1, List.cons_append, settle_name hn.2 hnone]
  induction h generalizing s with
  | here l =>
      obtain rfl := Stop.place.inj hstop
      exact ⟨s, .directory hs, hroot, fun _ _ => rfl⟩
  | above _ ih =>
      obtain ⟨t, ht, hroot', hsettle⟩ := ih hs.above (s.root_above.symm ▸ hroot) hstop
      refine ⟨t, ht, hroot', fun known rest => ?_⟩
      rw [stepsOf_name (by decide), List.cons_append, settle_above, hsettle]
  | stay _ ih => exact ih hs hroot hstop
  | enter hn hsize hdir _ ih =>
      obtain ⟨t, ht, hroot', hsettle⟩ := ih (.enter hs hn hsize hdir) hroot hstop
      exact ⟨t, ht, hroot', fun known rest =>
        (hgoes hs hroot hn hsize (by simp [hdir]) _ known rest).trans (hsettle known rest)⟩
  | link _ _ _ _ => cases hstop
  | @last l n hn hsize hdir hlink =>
      obtain rfl := Stop.place.inj hstop
      exact ⟨s.enter n, .last hs hn hdir, hroot,
        hgoes hs hroot hn hsize (hlink.resolve_left (by simp)) []⟩

/-- Where the system comes to a link, the lenient walk comes to it too. -/
theorem Spells.settle_link (hs : Spells d s l) (hlook : Looks d R look) (hroot : R s.root)
    {directory : Location} {target : String} {left : List String}
    (h : d.advance true l names = .ok (.link directory target left)) :
    ∃ t n, Spells d t directory ∧ R t.root ∧ d.get? (n :: directory) = some (.link target) ∧
      n ≠ ".." ∧ look (t.enter n).path = some target ∧ ∀ known rest,
      settle look known s (stepsOf names ++ rest) =
        settle look known t (.enter n :: (stepsOf left ++ rest)) := by
  rw [advance_eq_ok_iff] at h
  generalize hstop : Stop.link directory target left = stop at h
  induction h generalizing s with
  | here l => cases hstop
  | above _ ih =>
      obtain ⟨t, m, ht, hroot', hlink, hm, hseen, hsettle⟩ :=
        ih hs.above (s.root_above.symm ▸ hroot) hstop
      refine ⟨t, m, ht, hroot', hlink, hm, hseen, fun known rest => ?_⟩
      rw [stepsOf_name (by decide), List.cons_append, settle_above, hsettle]
  | stay _ ih => exact ih hs hroot hstop
  | @enter l n names _ hn hsize hdir _ ih =>
      have hnone : look (s.enter n).path = none := by
        rw [hlook.shows hroot hs hn hsize, targetAt?, hdir]
      obtain ⟨t, m, ht, hroot', hlink, hm, hseen, hsettle⟩ :=
        ih (.enter hs hn hsize hdir) hroot hstop
      refine ⟨t, m, ht, hroot', hlink, hm, hseen, fun known rest => ?_⟩
      rw [stepsOf_name hn.1, List.cons_append, settle_name hn.2 hnone, hsettle]
  | @link l n target names hn hsize hlink _ =>
      obtain ⟨rfl, rfl, rfl⟩ := Stop.link.inj hstop
      refine ⟨s, n, hs, hroot, hlink, hn.2, ?_, fun known rest => ?_⟩
      · rw [hlook.shows hroot hs hn hsize, targetAt?_eq_some_iff]
        exact hlink
      · rw [stepsOf_name hn.1]
        rfl
  | last _ _ _ _ => cases hstop

/-! ### What is known of links -/

/-- The system comes to a place over the target of a link in a directory. -/
def Crosses (d : Disk) (links : Nat) (l : Location) (target : String) (q : Place) : Prop :=
  d.walk true links (linkStart l (Path.ofText target)) (targetNames target) = .ok q

/-- A link that is known to lead somewhere leads the system there. -/
def Arrived (d : Disk) (R : Root → Prop) (known : Known) : Prop :=
  ∀ ⦃s t : Spot⦄ ⦃l : Location⦄ ⦃n target : String⦄, Spells d s l →
    d.get? (n :: l) = some (.link target) → known.lookup (s.enter n) = some (some t) →
    R t.root ∧ ∃ c q, Crosses d c l target q ∧ Shows d t q

/-- The system does not come over a link that is being followed with fewer links than `links`. -/
def Underway (d : Disk) (links : Nat) (known : Known) : Prop :=
  ∀ ⦃s : Spot⦄ ⦃l : Location⦄ ⦃n target : String⦄, Spells d s l →
    d.get? (n :: l) = some (.link target) → known.lookup (s.enter n) = some none →
    ∀ c < links, ∀ q, ¬Crosses d c l target q

/-- What is underway on the second list is underway on the first. -/
def NoNew (known known' : Known) : Prop :=
  ∀ x, known'.lookup x = some none → known.lookup x = some none

theorem Underway.mono {known' : Known} (h : Underway d links known) (hno : NoNew known known')
    (hle : c ≤ links) : Underway d c known' :=
  fun _ _ _ _ hs hlink hlookup i hi =>
    h hs hlink (hno _ hlookup) i (Nat.lt_of_lt_of_le hi hle)

theorem Spot.enter_inj {m : String} (h : s.enter n = t.enter m) : s = t ∧ n = m := by
  cases s
  cases t
  simp only [Spot.enter, Spot.mk.injEq, List.cons.injEq] at h
  obtain ⟨rfl, rfl, rfl⟩ := h
  exact ⟨rfl, rfl⟩

/-- What is noted of a link is known of it, and nothing else is. -/
theorem lookup_note (x y : Spot) (v : Option Spot) :
    ((x, v) :: known : Known).lookup y = if y = x then some v else known.lookup y := by
  rw [List.lookup_cons]
  split
  · next h => rw [if_pos (beq_iff_eq.1 h)]
  · next h => rw [if_neg (by simpa using h)]

/-- The target of a link at a spot that the walk came to. -/
theorem Spells.target_unique {m : Location} {n' target target' : String} (hs : Spells d s l)
    (hlink : d.get? (n :: l) = some (.link target)) (ht : Spells d t m)
    (hlink' : d.get? (n' :: m) = some (.link target')) (h : s.enter n = t.enter n') :
    l = m ∧ target = target' := by
  obtain ⟨rfl, rfl⟩ := Spot.enter_inj h
  obtain rfl := hs.unique ht
  rw [hlink] at hlink'
  exact ⟨rfl, Entry.link.inj (Option.some.inj hlink')⟩

/-- A link that is left is known to lead where the walk stands. -/
theorem Arrived.note {target : String} (h : Arrived d R known) (hs : Spells d s l)
    (hlink : d.get? (n :: l) = some (.link target)) (hroot : R t.root)
    (hcrosses : Crosses d c l target q) (ht : Shows d t q) :
    Arrived d R ((s.enter n, some t) :: known) := by
  intro s' t' l' n' target' hs' hlink' hlookup
  rw [lookup_note] at hlookup
  split at hlookup
  · next heq =>
    obtain rfl := Option.some.inj (Option.some.inj hlookup)
    obtain ⟨rfl, rfl⟩ := hs'.target_unique hlink' hs hlink heq
    exact ⟨hroot, c, q, hcrosses, ht⟩
  · exact h hs' hlink' hlookup

theorem Arrived.enter (h : Arrived d R known) (x : Spot) : Arrived d R ((x, none) :: known) := by
  intro s' t' l' n' target' hs' hlink' hlookup
  rw [lookup_note] at hlookup
  split at hlookup
  · cases hlookup
  · exact h hs' hlink' hlookup

/-- A link is entered with the least number of links that the system needs for it. -/
theorem Underway.enter {target : String} (h : Underway d links known) (hs : Spells d s l)
    (hlink : d.get? (n :: l) = some (.link target)) (hle : c ≤ links)
    (hleast : ∀ i < c, ∀ q, ¬Crosses d i l target q) :
    Underway d c ((s.enter n, none) :: known) := by
  intro s' l' n' target' hs' hlink' hlookup
  rw [lookup_note] at hlookup
  split at hlookup
  · next heq =>
    obtain ⟨rfl, rfl⟩ := hs'.target_unique hlink' hs hlink heq
    exact hleast
  · exact fun i hi => h hs' hlink' hlookup i (Nat.lt_of_lt_of_le hi hle)

/-- A link that was left is not underway any more. -/
theorem NoNew.leave {known' : Known} {x : Spot} (h : NoNew ((x, none) :: known) known') :
    NoNew known ((x, some t) :: known') := by
  intro y hy
  rw [lookup_note] at hy
  split at hy
  · cases hy
  · next hne =>
    have hlookup := h y hy
    rwa [lookup_note, if_neg hne] at hlookup

/-! ### The lenient walk -/

/-- The lenient walk comes over steps to a place, which the system comes to over `links` links. -/
structure Comes (d : Disk) (R : Root → Prop) (look : Path → Option String) (links fuel : Nat)
    (known : Known) (s : Spot) (steps : List Step) (q : Place) (fuel' : Nat) (known' : Known)
    (t : Spot) : Prop where
  goesOn : ∀ rest, settleAll look fuel known s (steps ++ rest) = settleAll look fuel' known' t rest
  shows : Shows d t q
  root : R t.root
  arrived : Arrived d R known'
  noNew : NoNew known known'
  spent : fuel ≤ fuel' + links

/-- The lenient walk comes over names wherever the system does, over that many links. -/
def KeepsUp (d : Disk) (R : Root → Prop) (look : Path → Option String) (links : Nat) : Prop :=
  ∀ ⦃l : Location⦄ ⦃names : List String⦄ ⦃q : Place⦄ ⦃fuel : Nat⦄ ⦃known : Known⦄ ⦃s : Spot⦄,
    Spells d s l → R s.root → d.walk true links l names = .ok q → Arrived d R known →
    Underway d links known → links ≤ fuel →
    ∃ fuel' known' t, Comes d R look links fuel known s (stepsOf names) q fuel' known' t

theorem settleAll_of_settle {fuel : Nat} {known' : Known} {steps steps' : List Step}
    (h : settle look known s steps = settle look known' t steps') :
    settleAll look fuel known s steps = settleAll look fuel known' t steps' := by
  rw [settleAll, settleAll, h]

/-- Steps that settle to others come where those come. -/
theorem Comes.of_settle {fuel fuel' : Nat} {known' : Known} {steps steps' : List Step} {u : Spot}
    (h : Comes d R look links fuel known t steps q fuel' known' u)
    (hsettle : ∀ rest, settle look known s (steps' ++ rest) = settle look known t (steps ++ rest)) :
    Comes d R look links fuel known s steps' q fuel' known' u :=
  { h with goesOn := fun rest => (settleAll_of_settle (hsettle rest)).trans (h.goesOn rest) }

/-- Steps after steps: the links that are followed add up. -/
theorem Comes.trans {fuel fuel₁ fuel₂ k : Nat} {known₁ known₂ : Known} {steps steps' : List Step}
    {q' : Place} {t₁ t₂ : Spot} (h : Comes d R look c fuel known s steps q fuel₁ known₁ t₁)
    (h' : Comes d R look k fuel₁ known₁ t₁ steps' q' fuel₂ known₂ t₂) :
    Comes d R look (c + k) fuel known s (steps ++ steps') q' fuel₂ known₂ t₂ where
  goesOn rest := by rw [List.append_assoc, h.goesOn, h'.goesOn]
  shows := h'.shows
  root := h'.root
  arrived := h'.arrived
  noNew x hx := h.noNew x (h'.noNew x hx)
  spent := by
    have hspent := h.spent
    have hspent' := h'.spent
    omega

/-- **The lenient walk crosses a link** that the system follows: it is known, or it is entered and
left.  It is not being followed already. -/
theorem Spells.cross {fuel : Nat} {target : String} (hs : Spells d s l) (hlook : Looks d R look)
    (hroot : R s.root) (hkeeps : ∀ j ≤ c, KeepsUp d R look j)
    (hlink : d.get? (n :: l) = some (.link target)) (hn : n ≠ "..")
    (hseen : look (s.enter n).path = some target) (hcrosses : Crosses d c l target q)
    (harrived : Arrived d R known) (hunderway : Underway d (c + 1) known) (hfuel : c + 1 ≤ fuel) :
    ∃ fuel' known' t, Comes d R look (c + 1) fuel known s [.enter n] q fuel' known' t := by
  cases hlookup : known.lookup (s.enter n) with
  | some v =>
      cases v with
      | some t =>
          obtain ⟨hroot', c', q', hcrosses', ht⟩ := harrived hs hlink hlookup
          obtain rfl := walk_unique hcrosses hcrosses'
          refine ⟨fuel, known, t, ⟨fun rest => settleAll_of_settle ?_, ht, hroot', harrived,
            fun _ h => h, Nat.le_add_right _ _⟩⟩
          rw [List.singleton_append, settle, if_neg hn, hseen]
          simp only [hlookup]
      | none => exact absurd hcrosses (hunderway hs hlink hlookup c (Nat.lt_succ_self c) q)
  | none =>
      obtain ⟨j, hj, hcrosses', hleast⟩ := exists_least hcrosses
      obtain ⟨fuel, rfl⟩ : ∃ k, fuel = k + 1 := ⟨fuel - 1, by omega⟩
      obtain ⟨fuel', known', t, hcomes⟩ := hkeeps j hj (hs.start _) (hlook.start hroot _) hcrosses'
        (harrived.enter (s.enter n)) (hunderway.enter hs hlink (by omega) hleast)
        (show j ≤ fuel by omega)
      refine ⟨fuel', (s.enter n, some t) :: known', t, ⟨fun rest => ?_, hcomes.shows, hcomes.root,
        hcomes.arrived.note hs hlink hcomes.root hcrosses' hcomes.shows, hcomes.noNew.leave, ?_⟩⟩
      · have henter : settle look known s ([.enter n] ++ rest) = .link s n target known rest := by
          rw [List.singleton_append, settle, if_neg hn, hseen]
          simp only [hlookup]
        rw [settleAll, henter]
        simp only
        rw [← stepsOf_targetNames, hcomes.goesOn]
        exact settleAll_of_settle rfl
      · have hspent := hcomes.spent
        omega

/-- **The lenient walk keeps up with the system.** -/
theorem keepsUp (hlook : Looks d R look) (links : Nat) : KeepsUp d R look links := by
  -- induction on the links that the system follows: each part of the way after a link has fewer
  induction links using Nat.strongRecOn with
  | ind links ih =>
      intro l names q fuel known s hs hroot hwalk harrived hunderway hfuel
      cases walk_eq_ok_iff.1 hwalk with
      | place hadvance =>
          obtain ⟨t, ht, hroot', hsettle⟩ := hs.settle_place hlook hroot hadvance
          exact ⟨fuel, known, t, fun rest => settleAll_of_settle (hsettle known rest), ht, hroot',
            harrived, fun _ h => h, Nat.le_add_right _ _⟩
      | @link links _ directory _ left target hadvance hrest =>
          obtain ⟨u, n, hu, huroot, hlink, hn, hseen, hsettle⟩ :=
            hs.settle_link hlook hroot hadvance
          by_cases hleft : left = []
          · subst hleft
            rw [List.append_nil] at hrest
            obtain ⟨fuel', known', t, hcomes⟩ := hu.cross hlook huroot
              (fun j hj => ih j (Nat.lt_succ_of_le hj)) hlink hn hseen (walk_eq_ok_iff.2 hrest)
              harrived hunderway hfuel
            exact ⟨fuel', known', t, hcomes.of_settle (hsettle known)⟩
          · obtain ⟨c, k, m, hsum, hfront, hback⟩ := walk_append hleft (walk_eq_ok_iff.2 hrest)
            have hlinks : c + 1 + k = links + 1 := by omega
            obtain ⟨fuel₁, known₁, t₁, hfirst⟩ := hu.cross hlook huroot
              (fun j hj => ih j (by omega)) hlink hn hseen hfront harrived
              (hunderway.mono (fun _ h => h) (by omega)) (show c + 1 ≤ fuel by omega)
            have hspent : fuel ≤ fuel₁ + (c + 1) := hfirst.spent
            obtain ⟨fuel', known', t, hsecond⟩ := ih k (by omega) hfirst.shows.spells hfirst.root
              hback hfirst.arrived (hunderway.mono hfirst.noNew (by omega))
              (show k ≤ fuel₁ by omega)
            exact ⟨fuel', known', t, hlinks ▸ (hfirst.trans hsecond).of_settle (hsettle known)⟩

end ReleaseFetch.Disk
