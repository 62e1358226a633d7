/-
**Walks on a disk with links.**

A walk follows directories and links, and looks at a file or a vacant name only where it ends.  So
what it says depends on the directories and links of the disk alone, up to the last entry: a disk
that has them too sends the walk to the same location.  Where one entry gives way to a file or to
nothing, a walk either misses it and goes on as before, or stops there.

Main definitions:

* `ReleaseFetch.Disk.Place.on` — a place as another disk shows it;
* `ReleaseFetch.Disk.Agrees` — two disks look the same;
* `ReleaseFetch.Disk.RoutesIn` — the directories and links of one disk are on another;
* `ReleaseFetch.Disk.Turned` — one entry gave way to a file or to nothing.

Main results:

* `ReleaseFetch.Disk.walk_append` — a walk over more names goes through the directory that the
  first ones lead to;
* `ReleaseFetch.Disk.RoutesIn.find` — where a walk ends on a disk with the same routes;
* `ReleaseFetch.Disk.Turned.find` — where a walk ends when one entry gave way;
* `ReleaseFetch.Disk.Agrees.find` — disks that look the same are walked in the same way.
-/

import ReleaseFetch.Proofs.Disk.Naming

set_option autoImplicit false

namespace ReleaseFetch

/-! ### The length of a path -/

namespace Text

/-- Fewer parts make the front of a text. -/
theorem joinWith_append {α : Type} (sep : List α) (xs ys : List (List α)) :
    ∃ rest, joinWith sep (xs ++ ys) = joinWith sep xs ++ rest := by
  induction xs with
  | nil => exact ⟨_, rfl⟩
  | cons x xs ih =>
      cases xs with
      | nil =>
          cases ys with
          | nil => exact ⟨[], by simp [joinWith]⟩
          | cons y ys => exact ⟨sep ++ joinWith sep (y :: ys), by simp [joinWith]⟩
      | cons x' xs =>
          obtain ⟨rest, hrest⟩ := ih
          exact ⟨rest, by simp only [List.cons_append, joinWith] at hrest ⊢; simp [hrest]⟩

end Text

namespace Path

/-- A path that is short enough stays so with fewer names. -/
theorem size_le_of_append {r : Root} {xs ys : List String}
    (h : Text.Utf8.size (text ⟨r, xs ++ ys⟩) ≤ Disk.pathLimit) :
    Text.Utf8.size (text ⟨r, xs⟩) ≤ Disk.pathLimit := by
  by_cases hdot : r = .here ∧ xs = []
  · obtain ⟨rfl, rfl⟩ := hdot
    decide
  · have htext : text ⟨r, xs⟩ = r.text ++ Text.join "/" xs := by
      simp only [text, List.isEmpty_iff, Bool.and_eq_true, decide_eq_true_eq]
      exact if_neg hdot
    have htext' : text ⟨r, xs ++ ys⟩ = r.text ++ Text.join "/" (xs ++ ys) := by
      simp only [text, List.isEmpty_iff, Bool.and_eq_true, decide_eq_true_eq]
      exact if_neg fun hnil => hdot ⟨hnil.1, (List.append_eq_nil_iff.1 hnil.2).1⟩
    obtain ⟨rest, hrest⟩ := Text.joinWith_append "/".toList (xs.map String.toList)
      (ys.map String.toList)
    have hjoin : Text.join "/" (xs ++ ys) = Text.join "/" xs ++ String.ofList rest := by
      rw [Text.join, Text.join, List.map_append, hrest, String.ofList_append]
    rw [htext', hjoin, Text.Utf8.size, String.utf8ByteSize_append, String.utf8ByteSize_append] at h
    rw [htext, Text.Utf8.size, String.utf8ByteSize_append]
    omega

end Path

namespace Disk

variable {d e : Disk} {follow : Bool} {links : Nat} {l : Location} {names : List String}
  {p : Path} {q : Place}

/-! ### More names -/

/-- Names are advanced over one after the other; in front of more names a link is followed, and
anything but a directory stops the walk. -/
theorem advance_append (d : Disk) (follow : Bool) (l : Location) (xs : List String)
    {ys : List String} (hys : ys ≠ []) :
    d.advance follow l (xs ++ ys) =
      match d.advance true l xs with
      | .error e => .error e
      | .ok (.link directory target left) => .ok (.link directory target (left ++ ys))
      | .ok (.place ⟨m, some .directory⟩) => d.advance follow m ys
      | .ok (.place ⟨_, some _⟩) => .error .notDirectory
      | .ok (.place ⟨_, none⟩) => .error .noEntry := by
  induction xs generalizing l with
  | nil => rfl
  | cons n rest ih =>
      have hrest : (rest ++ ys).isEmpty = false := by simp [hys]
      simp only [List.cons_append, advance]
      split
      · exact ih l.tail
      · split
        · exact ih l
        · split
          · rfl
          · cases hx : d.get? (n :: l) with
            | none => cases rest <;> simp [hys]
            | some x =>
                cases x with
                | directory => exact ih (n :: l)
                | link target => simp [hrest]
                | file b m => cases rest <;> simp [hys]

/-- Walks that advance to the same stop go on in the same way. -/
theorem walk_of_advance {l' : Location} {names' : List String}
    (h : d.advance follow l names = d.advance follow l' names') :
    d.walk follow links l names = d.walk follow links l' names' := by
  cases links <;> rw [walk, walk, h]

/-- How names are walked with more names behind them: through a directory, or not at all. -/
inductive Passes (d : Disk) (links : Nat) (l : Location) (xs : List String) : Prop where
  | through (m : Location) (left : Nat) (leads : d.walk true links l xs = .ok ⟨m, some .directory⟩)
      (goesOn : ∀ follow ys, ys ≠ [] → d.walk follow links l (xs ++ ys) = d.walk follow left m ys)
  | stops (leads : ∀ m, d.walk true links l xs ≠ .ok ⟨m, some .directory⟩)
      (fails : ∀ follow ys, ys ≠ [] → ∃ err, d.walk follow links l (xs ++ ys) = .error err)

theorem passes_of_error {err : Errno} (h : d.advance true l names = .error err) :
    d.Passes links l names := by
  refine .stops (fun m => by rw [walk_error h]; simp) fun follow ys hys => ⟨err, walk_error ?_⟩
  rw [advance_append d follow l names hys, h]

/-- Without a link on the way, the walk goes on where the first names end. -/
theorem passes_of_place {m : Location} {x : Option Entry}
    (h : d.advance true l names = .ok (.place ⟨m, x⟩)) : d.Passes links l names := by
  have hmore (follow : Bool) (ys : List String) (hys : ys ≠ []) :=
    advance_append d follow l names hys
  simp only [h] at hmore
  by_cases hx : x = some .directory
  · subst hx
    exact .through m links (walk_place h) fun follow ys hys => walk_of_advance (hmore follow ys hys)
  · refine .stops (fun m' => by rw [walk_place h]; simp [hx]) fun follow ys hys => ?_
    rcases x with _ | _ | _ | _
    · exact ⟨_, walk_error (hmore follow ys hys)⟩
    · exact absurd rfl hx
    · exact ⟨_, walk_error (hmore follow ys hys)⟩
    · exact ⟨_, walk_error (hmore follow ys hys)⟩

/-- **A walk over more names goes through the directory that the first ones lead to**, and fails if
they lead to none. -/
theorem passes (d : Disk) (links : Nat) (l : Location) (xs : List String) :
    d.Passes links l xs := by
  -- induction on the links that may be followed; the names grow with every target
  induction links generalizing l xs with
  | zero =>
      cases h : d.advance true l xs with
      | error err => exact passes_of_error h
      | ok s =>
          cases s with
          | place q => exact passes_of_place h
          | link directory target left =>
              refine .stops (fun m => by rw [walk_link_zero h]; simp) fun follow ys hys =>
                ⟨.loop, ?_⟩
              exact walk_link_zero (by rw [advance_append d follow l xs hys, h])
  | succ links ih =>
      cases h : d.advance true l xs with
      | error err => exact passes_of_error h
      | ok s =>
          cases s with
          | place q => exact passes_of_place h
          | link directory target left =>
              have hmore (follow : Bool) (ys : List String) (hys : ys ≠ []) :
                  d.walk follow (links + 1) l (xs ++ ys) =
                    d.walk follow links (linkStart directory (Path.ofText target))
                      ((targetNames target ++ left) ++ ys) := by
                rw [walk_link_succ (by rw [advance_append d follow l xs hys, h]),
                  List.append_assoc]
              cases ih (linkStart directory (Path.ofText target)) (targetNames target ++ left) with
              | through m k leads goesOn =>
                  exact .through m k ((walk_link_succ h).trans leads) fun follow ys hys =>
                    (hmore follow ys hys).trans (goesOn follow ys hys)
              | stops leads fails =>
                  refine .stops (fun m => by rw [walk_link_succ h]; exact leads m)
                    fun follow ys hys => ?_
                  rw [hmore follow ys hys]
                  exact fails follow ys hys

/-! ### The last link -/

/-- A link at the end is what a walk ends at if it is not followed; else following does not
matter. -/
theorem advance_false (d : Disk) (l : Location) (names : List String) :
    (∃ m t, d.advance false l names = .ok (.place ⟨m, some (.link t)⟩)) ∨
      d.advance false l names = d.advance true l names := by
  induction names generalizing l with
  | nil => exact .inr rfl
  | cons n rest ih =>
      simp only [advance]
      split
      · exact ih l.tail
      · split
        · exact ih l
        · split
          · exact .inr rfl
          · split
            · exact ih (n :: l)
            · next t hx =>
              cases rest with
              | nil => exact .inl ⟨n :: l, t, rfl⟩
              | cons r rs => exact .inr rfl
            · exact .inr rfl

theorem walk_false (d : Disk) (links : Nat) (l : Location) (names : List String) :
    (∃ m t, d.walk false links l names = .ok ⟨m, some (.link t)⟩) ∨
      d.walk false links l names = d.walk true links l names := by
  refine ((walk_alike (P := fun _ => True) (R := fun r => ∃ m t, r = .ok ⟨m, some (.link t)⟩)
    trivial (fun {l} names _ => ?_) links names trivial).imp_left And.left).symm
  rcases d.advance_false l names with ⟨m, t, h⟩ | h
  · exact .inr ⟨.ok ⟨m, some (.link t)⟩, h, m, t, rfl⟩
  · exact .inl ⟨h, fun _ _ => trivial⟩

/-! ### Where a walk ends -/

/-- What a walk ends at is a directory, which may be named by dots alone, or it is what stands there
and no link to follow. -/
theorem advance_ends (h : d.advance follow l names = .ok (.place q)) :
    q.entry = some .directory ∨ d.get? q.location = q.entry ∧
      (follow = false ∨ ∀ t, q.entry ≠ some (.link t)) := by
  rw [advance_eq_ok_iff] at h
  generalize hstop : Stop.place q = s at h
  induction h with
  | here l =>
      obtain rfl := Stop.place.inj hstop
      exact .inl rfl
  | above _ ih => exact ih hstop
  | stay _ ih => exact ih hstop
  | enter _ _ _ _ ih => exact ih hstop
  | link _ _ _ _ => cases hstop
  | last _ _ _ hlink =>
      obtain rfl := Stop.place.inj hstop
      exact .inr ⟨rfl, hlink⟩

theorem walk_ends (h : d.walk follow links l names = .ok q) :
    q.entry = some .directory ∨ d.get? q.location = q.entry ∧
      (follow = false ∨ ∀ t, q.entry ≠ some (.link t)) := by
  rw [walk_eq_ok_iff] at h
  induction h with
  | place hs => exact advance_ends hs
  | link _ _ ih => exact ih

theorem walk_entry (h : d.walk follow links l names = .ok q) (hq : q.entry ≠ some .directory) :
    d.get? q.location = q.entry :=
  ((walk_ends h).resolve_left hq).1

/-- A walk that follows links ends at none. -/
theorem walk_true_ne_link (h : d.walk true links l names = .ok q) (t : String) :
    q.entry ≠ some (.link t) := by
  rcases walk_ends h with hdir | ⟨-, hlink⟩
  · simp [hdir]
  · exact hlink.resolve_left (by simp) t

/-! ### Disks with the same routes -/

/-- A place as another disk shows it: a directory stays one, and anything else is what stands there
by then. -/
def Place.on (q : Place) (e : Disk) : Place :=
  if q.entry = some .directory then q else ⟨q.location, e.get? q.location⟩

theorem Place.on_directory (e : Disk) (l : Location) :
    Place.on ⟨l, some .directory⟩ e = ⟨l, some .directory⟩ := rfl

theorem Place.on_of_ne (e : Disk) (h : q.entry ≠ some .directory) :
    q.on e = ⟨q.location, e.get? q.location⟩ := if_neg h

/-- The directories and links of one disk are on another, seen from the same directory. -/
structure RoutesIn (d e : Disk) : Prop where
  here : e.here = d.here
  kept : ∀ {l : Location} {x : Entry}, d.get? l = some x → (∀ b m, x ≠ .file b m) →
    e.get? l = some x

namespace RoutesIn

variable {f : Disk}

theorem refl (d : Disk) : d.RoutesIn d := ⟨rfl, fun h _ => h⟩

theorem trans (h : d.RoutesIn e) (h' : e.RoutesIn f) : d.RoutesIn f :=
  ⟨h'.here.trans h.here, fun hl hx => h'.kept (h.kept hl hx) hx⟩

theorem start (h : d.RoutesIn e) (p : Path) : e.start p = d.start p := start_of_here h.here p

theorem advance_link (h : d.RoutesIn e) {directory : Location} {target : String}
    {left : List String} (hs : d.advance follow l names = .ok (.link directory target left)) :
    e.advance follow l names = .ok (.link directory target left) := by
  rw [advance_eq_ok_iff] at hs ⊢
  generalize hstop : Stop.link directory target left = s at hs ⊢
  induction hs with
  | here l => cases hstop
  | above _ ih => exact .above (ih hstop)
  | stay _ ih => exact .stay (ih hstop)
  | enter hn hsize hx _ ih => exact .enter hn hsize (h.kept hx (by simp)) (ih hstop)
  | link hn hsize hx hmore => exact .link hn hsize (h.kept hx (by simp)) hmore
  | last _ _ _ _ => cases hstop

theorem advance_place (h : d.RoutesIn e) (hs : d.advance follow l names = .ok (.place q))
    (hq : follow = false ∨ ∀ t, (q.on e).entry ≠ some (.link t)) :
    e.advance follow l names = .ok (.place (q.on e)) := by
  rw [advance_eq_ok_iff] at hs ⊢
  generalize hstop : Stop.place q = s at hs
  induction hs with
  | here l =>
      obtain rfl := Stop.place.inj hstop
      exact .here l
  | above _ ih => exact .above (ih hstop)
  | stay _ ih => exact .stay (ih hstop)
  | enter hn hsize hx _ ih => exact .enter hn hsize (h.kept hx (by simp)) (ih hstop)
  | link _ _ _ _ => cases hstop
  | last hn hsize hdir _ =>
      -- what is no way on is looked at where the walk ends only
      obtain rfl := Stop.place.inj hstop
      rw [Place.on_of_ne e hdir] at hq ⊢
      exact advance_eq_ok_iff.1 (advance_name hn.2 hn.1 hsize hq)

/-- What a walk leads to on one disk, it leads to on the other, as that shows it. -/
theorem walk (h : d.RoutesIn e) (hw : d.walk follow links l names = .ok q)
    (hq : follow = false ∨ ∀ t, (q.on e).entry ≠ some (.link t)) :
    e.walk follow links l names = .ok (q.on e) := by
  rw [walk_eq_ok_iff] at hw ⊢
  induction hw with
  | place hs => exact .place (h.advance_place hs hq)
  | link hs _ ih => exact .link (h.advance_link hs) ih

end RoutesIn

/-! ### One entry gives way -/

/-- What a walk meets behind an entry that is no directory. -/
def gap (y : Option Entry) : Errno := if y.isNone then .noEntry else .notDirectory

/-- An entry that was no directory gave way to a file or to nothing. -/
structure Turned (a : Location) (y : Option Entry) (d e : Disk) : Prop where
  here : e.here = d.here
  other : ∀ {l : Location}, l ≠ a → e.get? l = d.get? l
  shows : e.get? a = y
  still : ∀ x, y = some x → ∃ b m, x = .file b m
  vacant : d.get? a ≠ some .directory

namespace Turned

variable {a : Location} {y : Option Entry}

/-- A walk misses the entry that gave way, or ends there, or fails behind it. -/
theorem advance (h : Turned a y d e) (follow : Bool) (l : Location) (names : List String) :
    e.advance follow l names = d.advance follow l names ∨
      e.advance follow l names = .ok (.place ⟨a, y⟩) ∨
        e.advance follow l names = .error (gap y) := by
  induction names generalizing l with
  | nil => exact .inl rfl
  | cons n rest ih =>
      simp only [Disk.advance]
      split
      · exact ih l.tail
      · split
        · exact ih l
        · split
          · exact .inl rfl
          · by_cases ha : n :: l = a
            · right
              rw [ha, h.shows]
              cases y with
              | none => cases rest <;> simp [gap]
              | some x =>
                  obtain ⟨b, m, rfl⟩ := h.still x rfl
                  cases rest <;> simp [gap]
            · rw [h.other ha]
              split
              · exact ih (n :: l)
              · exact .inl rfl
              · exact .inl rfl

theorem walk (h : Turned a y d e) (follow : Bool) (links : Nat) (l : Location)
    (names : List String) :
    e.walk follow links l names = d.walk follow links l names ∨
      e.walk follow links l names = .ok ⟨a, y⟩ ∨
        e.walk follow links l names = .error (gap y) := by
  refine (walk_alike (P := fun _ => True) (R := fun r => r = .ok ⟨a, y⟩ ∨ r = .error (gap y))
    trivial (fun {l} names _ => ?_) links names trivial).imp_left And.left
  rcases h.advance follow l names with hs | hs | hs
  · exact .inl ⟨hs, fun _ _ => trivial⟩
  · exact .inr ⟨.ok ⟨a, y⟩, hs, .inl rfl⟩
  · exact .inr ⟨.error (gap y), hs, .inr rfl⟩

end Turned

/-! ### Disks that look the same -/

/-- The root cannot be taken away. -/
theorem get?_erase_root (d : Disk) (l : Location) : (d.erase []).get? l = d.get? l := by
  by_cases hl : l = []
  · rw [hl, get?_root, get?_root]
  · have hkeep : (l != []) = true := by simpa using hl
    unfold get? erase
    rw [if_neg hl, if_neg hl, lookup_filter_of_keep (· != []) hkeep]

/-- Nothing can be put in place of the root. -/
theorem get?_put_root (d : Disk) (x : Entry) (l : Location) : (d.put [] x).get? l = d.get? l := by
  by_cases hl : l = []
  · rw [hl, get?_root, get?_root]
  · rw [← get?_erase_root d l]
    unfold get? put erase
    rw [if_neg hl, if_neg hl, List.lookup_cons, show (l == []) = false by simpa using hl]

/-- What two disks show alike they show alike after the same entry is removed. -/
theorem get?_erase_eq {k : Location} (h : d.get? k = e.get? k) (l : Location) :
    (d.erase l).get? k = (e.erase l).get? k := by
  by_cases hl : l = []
  · rw [hl, get?_erase_root, get?_erase_root, h]
  · rw [get?_erase _ _ _ hl, get?_erase _ _ _ hl, h]

/-- Two disks look the same, from the same directory. -/
structure Agrees (d e : Disk) : Prop where
  view : d.SameView e
  here : d.here = e.here

namespace Agrees

variable {f : Disk}

theorem refl (d : Disk) : d.Agrees d := ⟨fun _ => rfl, rfl⟩

theorem symm (h : d.Agrees e) : e.Agrees d := ⟨fun l => (h.view l).symm, h.here.symm⟩

theorem trans (h : d.Agrees e) (h' : e.Agrees f) : d.Agrees f :=
  ⟨fun l => (h.view l).trans (h'.view l), h.here.trans h'.here⟩

theorem put (h : d.Agrees e) (l : Location) (x : Entry) : (d.put l x).Agrees (e.put l x) := by
  refine ⟨fun k => ?_, h.here⟩
  by_cases hl : l = []
  · rw [hl, get?_put_root, get?_put_root, h.view k]
  · rw [get?_put _ _ _ _ hl, get?_put _ _ _ _ hl, h.view k]

theorem erase (h : d.Agrees e) (l : Location) : (d.erase l).Agrees (e.erase l) :=
  ⟨fun k => get?_erase_eq (h.view k) l, h.here⟩

/-- Putting what is there already changes nothing that can be seen. -/
theorem put_same {x : Entry} (hl : l ≠ []) (hx : d.get? l = some x) : (d.put l x).Agrees d := by
  refine ⟨fun k => ?_, rfl⟩
  rw [get?_put _ _ _ _ hl]
  split
  · next hk => rw [hk, hx]
  · rfl

theorem start (h : d.Agrees e) (p : Path) : d.start p = e.start p := start_of_here h.here p

theorem advance (h : d.Agrees e) (follow : Bool) (l : Location) (names : List String) :
    d.advance follow l names = e.advance follow l names := by
  induction names generalizing l with
  | nil => rfl
  | cons n rest ih => simp only [Disk.advance, h.view (n :: l), ih]

theorem walk (h : d.Agrees e) (follow : Bool) (links : Nat) (l : Location) (names : List String) :
    d.walk follow links l names = e.walk follow links l names := by
  induction links generalizing l names with
  | zero => rw [Disk.walk, Disk.walk, h.advance]
  | succ links ih =>
      rw [Disk.walk, Disk.walk, h.advance]
      cases e.advance follow l names with
      | error err => rfl
      | ok s =>
          cases s with
          | place q => rfl
          | link directory target left => exact ih _ _

theorem locate (h : d.Agrees e) (follow : Bool) (p : Path) :
    d.locate follow p = e.locate follow p := by
  unfold Disk.locate
  simp only [h.start, h.view (e.start p), h.walk]

/-- **Disks that look the same are walked in the same way.** -/
theorem find (h : d.Agrees e) (follow : Bool) (p : Path) : d.find follow p = e.find follow p := by
  unfold Disk.find
  rw [h.locate]

end Agrees

/-! ### Paths -/

/-- A path that may be walked: it can be given to the system, and starts in a directory. -/
structure Enters (d : Disk) (p : Path) : Prop where
  noNul : hasNul p = false
  size : Text.Utf8.size p.text ≤ pathLimit
  start : p.names ≠ [] → d.get? (d.start p) = some .directory

/-- What is said of a path that may not be walked. -/
def refusal (p : Path) : Failure :=
  if hasNul p then nulFailure
  else failAt p (if Text.Utf8.size p.text > pathLimit then .nameTooLong else .noEntry)

theorem find_of_enters (h : d.Enters p) (follow : Bool) :
    d.find follow p =
      match d.walk follow linkLimit (d.start p) p.names with
      | .ok q => .ok q
      | .error err => .error (failAt p err) := by
  have hcond : (!p.names.isEmpty && d.get? (d.start p) != some .directory) = false := by
    by_cases hnil : p.names = []
    · simp [hnil]
    · simp [h.start hnil]
  have hlocate : d.locate follow p = d.walk follow linkLimit (d.start p) p.names := by
    unfold locate
    simp only [Nat.not_lt.2 h.size, hcond, Bool.false_eq_true, if_false]
  cases hwalk : d.walk follow linkLimit (d.start p) p.names with
  | ok q => simp [find, h.noNul, hlocate, hwalk]
  | error err => simp [find, h.noNul, hlocate, hwalk]

theorem find_of_not_enters (h : ¬d.Enters p) (follow : Bool) :
    d.find follow p = .error (refusal p) := by
  unfold find refusal locate
  cases hnul : hasNul p with
  | true => rfl
  | false =>
      by_cases hsize : Text.Utf8.size p.text > pathLimit
      · simp [hsize]
      · have hstart : ¬(p.names ≠ [] → d.get? (d.start p) = some .directory) := fun hstart =>
          h ⟨hnul, Nat.not_lt.1 hsize, hstart⟩
        obtain ⟨hne, hdir⟩ := Classical.not_imp.1 hstart
        simp [hsize, hne, hdir]

/-- What a path leads to, as a walk of its names. -/
theorem find_eq_ok_iff : d.find follow p = .ok q ↔
    d.Enters p ∧ d.walk follow linkLimit (d.start p) p.names = .ok q := by
  by_cases h : d.Enters p
  · rw [find_of_enters h]
    cases d.walk follow linkLimit (d.start p) p.names <;> simp [h]
  · rw [find_of_not_enters h]
    simp [h]

theorem noNul_of_found (h : d.find follow p = .ok q) : hasNul p = false :=
  (find_eq_ok_iff.1 h).1.noNul

/-- A link at the end is what is found if it is not followed; else following does not matter. -/
theorem find_false (d : Disk) (p : Path) :
    (∃ m t, d.find false p = .ok ⟨m, some (.link t)⟩) ∨ d.find false p = d.find true p := by
  by_cases henters : d.Enters p
  · rw [find_of_enters henters, find_of_enters henters]
    rcases d.walk_false linkLimit (d.start p) p.names with ⟨m, t, h⟩ | h
    · exact .inl ⟨m, t, by rw [h]⟩
    · exact .inr (by rw [h])
  · exact .inr ((find_of_not_enters henters false).trans (find_of_not_enters henters true).symm)

theorem find_entry (h : d.find follow p = .ok q) (hq : q.entry ≠ some .directory) :
    d.get? q.location = q.entry := walk_entry (find_eq_ok_iff.1 h).2 hq

theorem find_true_ne_link (h : d.find true p = .ok q) (t : String) : q.entry ≠ some (.link t) :=
  walk_true_ne_link (find_eq_ok_iff.1 h).2 t

/-- What is found and is no directory does not stand at the root. -/
theorem find_ne_root (h : d.find follow p = .ok q) (hq : q.entry ≠ some .directory) :
    q.location ≠ [] := by
  intro hnil
  have hentry := find_entry h hq
  rw [hnil, get?_root] at hentry
  exact hq hentry.symm

/-- **What is found on one disk is found on every disk with its routes**, as that shows it. -/
theorem RoutesIn.find (h : d.RoutesIn e) (hf : d.find follow p = .ok q)
    (hq : follow = false ∨ ∀ t, (q.on e).entry ≠ some (.link t)) :
    e.find follow p = .ok (q.on e) := by
  obtain ⟨henters, hwalk⟩ := find_eq_ok_iff.1 hf
  refine find_eq_ok_iff.2 ⟨⟨henters.noNul, henters.size, fun hne => ?_⟩, ?_⟩
  · rw [h.start]
    exact h.kept (henters.start hne) (by simp)
  · rw [h.start]
    exact h.walk hwalk hq

/-- The same paths may be walked after an entry gave way. -/
theorem Turned.enters_iff {a : Location} {y : Option Entry} (h : Turned a y d e) (p : Path) :
    e.Enters p ↔ d.Enters p := by
  have hstart : e.start p = d.start p := start_of_here h.here p
  have hdir : e.get? (d.start p) = some .directory ↔ d.get? (d.start p) = some .directory := by
    by_cases ha : d.start p = a
    · -- neither the old nor the new entry is a directory
      have hy : y ≠ some .directory := by
        intro hy
        obtain ⟨b, m, hx⟩ := h.still _ hy
        cases hx
      rw [ha, h.shows]
      exact ⟨fun hx => absurd hx hy, fun hx => absurd hx h.vacant⟩
    · rw [h.other ha]
  constructor
  · intro henters
    exact ⟨henters.noNul, henters.size, fun hne => hdir.1 (hstart ▸ henters.start hne)⟩
  · intro henters
    exact ⟨henters.noNul, henters.size, fun hne => by rw [hstart]; exact hdir.2 (henters.start hne)⟩

/-- **What is found after an entry gave way**: what was found before, or what it gave way to, or
nothing behind it. -/
theorem Turned.find {a : Location} {y : Option Entry} (h : Turned a y d e) (follow : Bool)
    (p : Path) : e.find follow p = d.find follow p ∨ e.find follow p = .ok ⟨a, y⟩ ∨
      e.find follow p = .error (failAt p (gap y)) := by
  have hstart : e.start p = d.start p := start_of_here h.here p
  by_cases henters : d.Enters p
  · rw [find_of_enters henters, find_of_enters ((h.enters_iff p).2 henters), hstart]
    rcases h.walk follow linkLimit (d.start p) p.names with hw | hw | hw
    · exact .inl (by rw [hw])
    · exact .inr (.inl (by rw [hw]))
    · exact .inr (.inr (by rw [hw]))
  · exact .inl ((find_of_not_enters (fun h' => henters ((h.enters_iff p).1 h')) follow).trans
      (find_of_not_enters henters follow).symm)

/-- The directory of what is found is there. -/
theorem find_append {r : Root} {xs ys : List String} (hys : ys ≠ [])
    (h : d.find follow ⟨r, xs ++ ys⟩ = .ok q) :
    ∃ m, d.find true ⟨r, xs⟩ = .ok ⟨m, some .directory⟩ := by
  obtain ⟨henters, hwalk⟩ := find_eq_ok_iff.1 h
  change d.walk follow linkLimit (d.start ⟨r, xs⟩) (xs ++ ys) = .ok q at hwalk
  cases d.passes linkLimit (d.start ⟨r, xs⟩) xs with
  | stops leads fails =>
      obtain ⟨err, herr⟩ := fails follow ys hys
      rw [herr] at hwalk
      cases hwalk
  | through m k leads goesOn =>
      have hnul := henters.noNul
      unfold hasNul at hnul
      rw [List.any_append, Bool.or_eq_false_iff] at hnul
      exact ⟨m, find_eq_ok_iff.2 ⟨⟨hnul.1, Path.size_le_of_append henters.size,
        fun _ => henters.start (by simp [hys])⟩, leads⟩⟩

/-- A path that the system takes, with a last name that a directory can hold. -/
def Fits (p : Path) : Prop :=
  Text.Utf8.size p.text ≤ pathLimit ∧ Text.Utf8.size p.name ≤ nameLimit

/-- A name of a directory that is there is found, unless it or the path is too long. -/
theorem find_concat {r : Root} {xs : List String} {m : Location}
    (h : d.find true ⟨r, xs⟩ = .ok ⟨m, some .directory⟩) {n : String} (hn : IsName n)
    (hnul : '\x00' ∉ n.toList) (hstart : xs = [] → d.get? (d.start ⟨r, xs⟩) = some .directory) :
    (Fits ⟨r, xs ++ [n]⟩ ∧ d.find false ⟨r, xs ++ [n]⟩ = .ok ⟨n :: m, d.get? (n :: m)⟩) ∨
      (¬Fits ⟨r, xs ++ [n]⟩ ∧
        d.find false ⟨r, xs ++ [n]⟩ = .error (failAt ⟨r, xs ++ [n]⟩ .nameTooLong)) := by
  obtain ⟨henters, hwalk⟩ := find_eq_ok_iff.1 h
  have hname : Path.name ⟨r, xs ++ [n]⟩ = n := by simp [Path.name]
  have hnulAll : hasNul ⟨r, xs ++ [n]⟩ = false := by
    have hfront := henters.noNul
    unfold hasNul at *
    rw [List.any_append, Bool.or_eq_false_iff]
    exact ⟨hfront, by simpa using hnul⟩
  by_cases hlong : Text.Utf8.size (Path.text ⟨r, xs ++ [n]⟩) > pathLimit
  · right
    refine ⟨fun hfits => absurd hfits.1 (Nat.not_le.2 hlong), ?_⟩
    rw [find_of_not_enters (fun h' => absurd h'.size (Nat.not_le.2 hlong)), refusal, hnulAll]
    simp [hlong]
  · have hall : d.Enters ⟨r, xs ++ [n]⟩ := by
      refine ⟨hnulAll, Nat.not_lt.1 hlong, fun _ => ?_⟩
      by_cases hxs : xs = []
      · exact hstart hxs
      · exact henters.start hxs
    cases d.passes linkLimit (d.start ⟨r, xs⟩) xs with
    | stops leads fails => exact absurd hwalk (leads m)
    | through m' k leads goesOn =>
        obtain rfl : m' = m := by simpa using leads.symm.trans hwalk
        have hmore : d.walk false linkLimit (d.start ⟨r, xs ++ [n]⟩) (xs ++ [n]) =
            d.walk false k m' [n] := goesOn false [n] (by simp)
        rw [find_of_enters hall, hmore]
        by_cases hsize : Text.Utf8.size n ≤ nameLimit
        · left
          refine ⟨⟨hall.size, hname.symm ▸ hsize⟩, ?_⟩
          rw [walk_place (advance_name hn.2 hn.1 (Nat.not_lt.2 hsize) (.inl rfl))]
        · right
          refine ⟨fun hfits => hsize (hname ▸ hfits.2), ?_⟩
          rw [walk_error (advance_long hn (Nat.not_le.1 hsize) [])]

/-- What is found without following a last link is one name away from a directory. -/
theorem find_last (hp : p.names ≠ []) (h : d.find false p = .ok q) :
    ∃ m k, d.walk false k m [p.name] = .ok q := by
  obtain ⟨-, hwalk⟩ := find_eq_ok_iff.1 h
  rw [← p.dropLast_append_name hp] at hwalk
  cases d.passes linkLimit (d.start p) p.names.dropLast with
  | stops leads fails =>
      obtain ⟨err, herr⟩ := fails false [p.name] (by simp)
      rw [herr] at hwalk
      cases hwalk
  | through m k leads goesOn => exact ⟨m, k, goesOn false [p.name] (by simp) ▸ hwalk⟩

/-- What is found without following a last link has the last name of the path. -/
theorem find_name (hname : IsName p.name) (hp : p.names ≠ [])
    (h : d.find false p = .ok q) : ∃ m, q.location = p.name :: m := by
  obtain ⟨m, k, hwalk⟩ := find_last hp h
  by_cases hsize : Text.Utf8.size p.name > nameLimit
  · rw [walk_error (advance_long hname hsize [])] at hwalk
    cases hwalk
  · rw [walk_place (advance_name hname.2 hname.1 hsize (.inl rfl))] at hwalk
    obtain rfl := Except.ok.inj hwalk
    exact ⟨m, rfl⟩

/-- A path without names leads to a directory. -/
theorem names_ne_nil_of_find (h : d.find follow p = .ok q)
    (hq : q.entry ≠ some .directory) : p.names ≠ [] := by
  intro hnil
  have hwalk := (find_eq_ok_iff.1 h).2
  rw [hnil] at hwalk
  have hstays : d.walk follow linkLimit (d.start p) [] = .ok ⟨d.start p, some .directory⟩ :=
    walk_place rfl
  obtain rfl := Except.ok.inj (hstays.symm.trans hwalk)
  exact hq rfl

/-- Dots at the end of a path lead to a directory. -/
theorem find_dots (hp : p.names ≠ []) (hdots : ¬IsName p.name) (h : d.find false p = .ok q) :
    q.entry = some .directory := by
  obtain ⟨m, k, hwalk⟩ := find_last hp h
  have hadvance : ∃ l, d.advance false m [p.name] = .ok (.place ⟨l, some .directory⟩) := by
    by_cases hup : p.name = ".."
    · exact ⟨m.tail, by simp [advance, hup]⟩
    · have hdot : p.name = "." := by
        refine Decidable.byContradiction fun hne => hdots ⟨hne, hup⟩
      exact ⟨m, by simp [advance, hdot]⟩
  obtain ⟨l, hl⟩ := hadvance
  rw [walk_place hl] at hwalk
  rw [← Except.ok.inj hwalk]

/-- What is no directory has the last name of the path that it is found by. -/
theorem isName_of_find (h : d.find false p = .ok q) (hq : q.entry ≠ some .directory) :
    p.names ≠ [] ∧ IsName p.name := by
  have hp := names_ne_nil_of_find h hq
  exact ⟨hp, Classical.byContradiction fun hdots => hq (find_dots hp hdots h)⟩

end Disk

end ReleaseFetch
