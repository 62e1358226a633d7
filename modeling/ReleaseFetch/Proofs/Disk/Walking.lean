/-
**Walks, told by their steps.**

A walk that comes to its end was made of steps: two dots went up, a single dot stayed, a name was
entered, and a link or the last name stopped it.  Here the walks that succeed are relations with a
rule for each step, so that what is said of them is proved by the steps.

Main definitions:

* `ReleaseFetch.Disk.IsName` — a name that an entry can have;
* `ReleaseFetch.Disk.Advances` — names that lead to a stop, with a rule for each kind of name;
* `ReleaseFetch.Disk.Walks` — names that lead to a place over links, with a rule for each stop.

Main results:

* `ReleaseFetch.Disk.advance_eq_ok_iff`, `ReleaseFetch.Disk.walk_eq_ok_iff` — the relations hold of
  the walks that succeed;
* `ReleaseFetch.Disk.walk_alike` — walks that advance alike end alike.
-/

import ReleaseFetch.Disk.Walk

set_option autoImplicit false

namespace ReleaseFetch.Disk

variable {d : Disk} {follow : Bool} {links : Nat} {l : Location} {n : String}
  {names : List String} {q : Place} {s : Stop}

/-! ### One name -/

/-- A name that an entry can have; the two others say how to walk on. -/
def IsName (n : String) : Prop := n ≠ "." ∧ n ≠ ".."

theorem advance_above (d : Disk) (follow : Bool) (l : Location) (names : List String) :
    d.advance follow l (".." :: names) = d.advance follow l.tail names := if_pos rfl

theorem advance_stay (d : Disk) (follow : Bool) (l : Location) (names : List String) :
    d.advance follow l ("." :: names) = d.advance follow l names :=
  (if_neg (by decide)).trans (if_pos rfl)

theorem advance_enter (hn : IsName n) (hsize : ¬Text.Utf8.size n > nameLimit)
    (hdir : d.get? (n :: l) = some .directory) (names : List String) :
    d.advance follow l (n :: names) = d.advance follow (n :: l) names := by
  rw [advance, if_neg hn.2, if_neg hn.1, if_neg hsize, hdir]

/-- A name that is too long leads nowhere. -/
theorem advance_long (hn : IsName n) (hsize : Text.Utf8.size n > nameLimit)
    (rest : List String) : d.advance follow l (n :: rest) = .error .nameTooLong := by
  rw [advance, if_neg hn.2, if_neg hn.1, if_pos hsize]

/-- The last name of a walk leads to what stands there, unless it is a link to follow. -/
theorem advance_name (hn : n ≠ "..") (hn' : n ≠ ".") (hsize : ¬Text.Utf8.size n > nameLimit)
    (hlink : follow = false ∨ ∀ t, d.get? (n :: l) ≠ some (.link t)) :
    d.advance follow l [n] = .ok (.place ⟨n :: l, d.get? (n :: l)⟩) := by
  rw [advance, if_neg hn, if_neg hn', if_neg hsize]
  cases hx : d.get? (n :: l) with
  | none => rfl
  | some x =>
      cases x with
      | directory => rfl
      | file b m => rfl
      | link t =>
          obtain rfl := hlink.resolve_right fun h => h t hx
          rfl

/-! ### Names up to a stop -/

/-- **Names that lead to a stop.** -/
inductive Advances (d : Disk) (follow : Bool) : Location → List String → Stop → Prop where
  | here (l : Location) : Advances d follow l [] (.place ⟨l, some .directory⟩)
  | above {l : Location} {names : List String} {s : Stop}
      (rest : Advances d follow l.tail names s) : Advances d follow l (".." :: names) s
  | stay {l : Location} {names : List String} {s : Stop} (rest : Advances d follow l names s) :
      Advances d follow l ("." :: names) s
  | enter {l : Location} {n : String} {names : List String} {s : Stop} (name : IsName n)
      (size : ¬Text.Utf8.size n > nameLimit) (directory : d.get? (n :: l) = some .directory)
      (rest : Advances d follow (n :: l) names s) : Advances d follow l (n :: names) s
  | link {l : Location} {n target : String} {names : List String} (name : IsName n)
      (size : ¬Text.Utf8.size n > nameLimit) (stands : d.get? (n :: l) = some (.link target))
      (followed : names = [] → follow = true) :
      Advances d follow l (n :: names) (.link l target names)
  | last {l : Location} {n : String} (name : IsName n) (size : ¬Text.Utf8.size n > nameLimit)
      (noDirectory : d.get? (n :: l) ≠ some .directory)
      (noLink : follow = false ∨ ∀ t, d.get? (n :: l) ≠ some (.link t)) :
      Advances d follow l [n] (.place ⟨n :: l, d.get? (n :: l)⟩)

theorem advances_of_advance (h : d.advance follow l names = .ok s) :
    d.Advances follow l names s := by
  -- induction on the names, with a case for each branch of the walk that goes on or stops
  induction names generalizing l with
  | nil =>
      obtain rfl := Except.ok.inj h
      exact .here l
  | cons n names ih =>
      simp only [advance] at h
      split at h
      · next hup =>
        subst hup
        exact .above (ih h)
      · next hup =>
        split at h
        · next hdot =>
          subst hdot
          exact .stay (ih h)
        · next hdot =>
          split at h
          · cases h
          · next hsize =>
            split at h
            · next hdir => exact .enter ⟨hdot, hup⟩ hsize hdir (ih h)
            · next target hlink =>
              split at h
              · next hend =>
                -- a link at the end that is not followed is what stands there
                obtain ⟨rfl, hfollow⟩ : names = [] ∧ follow = false := by simpa using hend
                obtain rfl := Except.ok.inj h
                rw [← hlink]
                exact .last ⟨hdot, hup⟩ hsize (by simp [hlink]) (.inl hfollow)
              · next hmore =>
                obtain rfl := Except.ok.inj h
                exact .link ⟨hdot, hup⟩ hsize hlink fun hnil => by simpa [hnil] using hmore
            · next hdir hlink =>
              split at h
              · next hend =>
                obtain rfl : names = [] := by simpa using hend
                obtain rfl := Except.ok.inj h
                exact .last ⟨hdot, hup⟩ hsize hdir (.inr hlink)
              · cases h

theorem Advances.advance (h : d.Advances follow l names s) :
    d.advance follow l names = .ok s := by
  induction h with
  | here l => rfl
  | above _ ih => exact (advance_above d follow _ _).trans ih
  | stay _ ih => exact (advance_stay d follow _ _).trans ih
  | enter hn hsize hdir _ ih => exact (advance_enter hn hsize hdir _).trans ih
  | @link l n target names hn hsize hlink hmore =>
      rw [Disk.advance, if_neg hn.2, if_neg hn.1, if_neg hsize, hlink]
      refine if_neg fun hend => ?_
      obtain ⟨hnil, hfollow⟩ : names = [] ∧ follow = false := by simpa using hend
      rw [hmore hnil] at hfollow
      cases hfollow
  | last hn hsize _ hlink => exact advance_name hn.2 hn.1 hsize hlink

/-- **The names that are advanced over lead to the stop**, and no others do. -/
theorem advance_eq_ok_iff : d.advance follow l names = .ok s ↔ d.Advances follow l names s :=
  ⟨advances_of_advance, Advances.advance⟩

/-! ### Walks over links -/

/-- The location that a walk stopped at. -/
def Stop.location : Stop → Location
  | .place q => q.location
  | .link directory _ _ => directory

theorem walk_error {err : Errno} (h : d.advance follow l names = .error err) :
    d.walk follow links l names = .error err := by
  cases links <;> simp only [walk, h]

theorem walk_place (h : d.advance follow l names = .ok (.place q)) :
    d.walk follow links l names = .ok q := by
  cases links <;> simp only [walk, h]

/-- A walk that meets no link comes to its end at once. -/
theorem walk_ended {r : Except Errno Place} (h : d.advance follow l names = r.map .place) :
    d.walk follow links l names = r := by
  cases r with
  | error err => exact walk_error h
  | ok q => exact walk_place h

theorem walk_link_zero {directory : Location} {target : String} {left : List String}
    (h : d.advance follow l names = .ok (.link directory target left)) :
    d.walk follow 0 l names = .error .loop := by
  simp only [walk, h]

/-- The names of a target come in front of those that are left. -/
theorem walk_link_succ {directory : Location} {target : String} {left : List String}
    (h : d.advance follow l names = .ok (.link directory target left)) :
    d.walk follow (links + 1) l names =
      d.walk follow links (linkStart directory (Path.ofText target))
        (targetNames target ++ left) := by
  rw [walk, h]

/-- A walk comes to its end, or to a link. -/
theorem advance_cases (d : Disk) (follow : Bool) (l : Location) (names : List String) :
    (∃ r : Except Errno Place, d.advance follow l names = r.map .place) ∨
      ∃ directory target left, d.advance follow l names = .ok (.link directory target left) := by
  rcases d.advance follow l names with err | q | ⟨directory, target, left⟩
  · exact .inl ⟨.error err, rfl⟩
  · exact .inl ⟨.ok q, rfl⟩
  · exact .inr ⟨directory, target, left, rfl⟩

/-- **Names that lead to a place**, over so many links at most. -/
inductive Walks (d : Disk) (follow : Bool) (q : Place) : Nat → Location → List String → Prop where
  | place {links : Nat} {l : Location} {names : List String}
      (stops : d.advance follow l names = .ok (.place q)) : Walks d follow q links l names
  | link {links : Nat} {l directory : Location} {names left : List String} {target : String}
      (stops : d.advance follow l names = .ok (.link directory target left))
      (rest : Walks d follow q links (linkStart directory (Path.ofText target))
        (targetNames target ++ left)) : Walks d follow q (links + 1) l names

/-- **The names that are walked lead to the place**, and no others do. -/
theorem walk_eq_ok_iff : d.walk follow links l names = .ok q ↔ d.Walks follow q links l names := by
  constructor
  · intro h
    induction links generalizing l names with
    | zero =>
        rcases d.advance_cases follow l names with ⟨r, hs⟩ | ⟨directory, target, left, hs⟩
        · obtain rfl := (walk_ended hs).symm.trans h
          exact .place hs
        · rw [walk_link_zero hs] at h
          cases h
    | succ links ih =>
        rcases d.advance_cases follow l names with ⟨r, hs⟩ | ⟨directory, target, left, hs⟩
        · obtain rfl := (walk_ended hs).symm.trans h
          exact .place hs
        · rw [walk_link_succ hs] at h
          exact .link hs (ih h)
  · intro h
    induction h with
    | place hs => exact walk_place hs
    | link hs _ ih => exact (walk_link_succ hs).trans ih

/-- **Two walks that advance alike end alike**, unless the one comes to an end of its own.  The
other one keeps to the locations of `P`, and `R` says how the one ends by itself. -/
theorem walk_alike {e : Disk} {follow' : Bool} {P : Location → Prop}
    {R : Except Errno Place → Prop} (hroot : P [])
    (hadvance : ∀ {l : Location} (names : List String), P l →
      (e.advance follow' l names = d.advance follow l names ∧
        ∀ s, d.advance follow l names = .ok s → P s.location) ∨
      ∃ r, e.advance follow' l names = r.map .place ∧ R r)
    (links : Nat) (names : List String) (hl : P l) :
    (e.walk follow' links l names = d.walk follow links l names ∧
      ∀ q, d.walk follow links l names = .ok q → P q.location) ∨
      R (e.walk follow' links l names) := by
  -- induction on the links; a target starts from where the link was met, or from the root
  induction links generalizing l names with
  | zero =>
      rcases hadvance names hl with ⟨hs, hout⟩ | ⟨r, hs, hr⟩
      · left
        rcases d.advance_cases follow l names with ⟨r, hd⟩ | ⟨directory, target, left, hd⟩
        · rw [walk_ended hd, walk_ended (hs.trans hd)]
          exact ⟨rfl, fun q hq => hout (.place q) (by rw [hd, hq]; rfl)⟩
        · rw [walk_link_zero hd, walk_link_zero (hs.trans hd)]
          exact ⟨rfl, nofun⟩
      · rw [walk_ended hs]
        exact .inr hr
  | succ links ih =>
      rcases hadvance names hl with ⟨hs, hout⟩ | ⟨r, hs, hr⟩
      · rcases d.advance_cases follow l names with ⟨r, hd⟩ | ⟨directory, target, left, hd⟩
        · rw [walk_ended hd, walk_ended (hs.trans hd)]
          exact .inl ⟨rfl, fun q hq => hout (.place q) (by rw [hd, hq]; rfl)⟩
        · rw [walk_link_succ hd, walk_link_succ (hs.trans hd)]
          refine ih _ ?_
          unfold linkStart
          split
          · exact hout _ hd
          · exact hroot
      · rw [walk_ended hs]
        exact .inr hr

end ReleaseFetch.Disk
