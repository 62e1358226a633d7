/-
**A link that is not looked at.**

The lenient walk writes two dots for every directory that it goes up from the working directory,
also where it is at the root already.  A link that goes up further than there are directories makes
what is written longer and longer, until it is too long to be looked at.  The links behind it are
taken as directories then: the system follows them, and the resolution takes them back by name.

Main definitions:

* `ReleaseFetch.Disk.farUp` — the target of a link that goes up;
* `ReleaseFetch.Disk.Overlong` — a disk with such a link, and a path over it.

Main results:

* `ReleaseFetch.Disk.Overlong.find`, `ReleaseFetch.Disk.Overlong.resolve` — where the system comes
  to, and what the resolution says.
-/

import ReleaseFetch.Proofs.Disk.Settling

set_option autoImplicit false

namespace ReleaseFetch

/-! ### Going up -/

namespace Disk

/-- The names of a path that goes up. -/
def upNames (n : Nat) : List String := List.replicate n ".."

/-- The target of a link that goes up. -/
def farUp (n : Nat) : String := String.ofList (List.replicate n ['.', '.', '/']).flatten

theorem pieces_farUp (n : Nat) :
    Text.pieces '/' (List.replicate n ['.', '.', '/']).flatten =
      List.replicate n ['.', '.'] ++ [[]] := by
  induction n with
  | zero => rfl
  | succ n ih => simp [List.replicate_succ, Text.pieces, ih]

theorem ofText_farUp (n : Nat) : Path.ofText (farUp (n + 1)) = ⟨.here, upNames (n + 1)⟩ := by
  have hnames : Path.namesOf (farUp (n + 1)).toList = upNames (n + 1) := by
    rw [farUp, String.toList_ofList, Path.namesOf, pieces_farUp, List.map_append, List.filter_append,
      List.map_replicate]
    have hkeep : (String.ofList ['.', '.'] != "" && String.ofList ['.', '.'] != ".") = true := by
      decide
    rw [List.filter_replicate, if_pos hkeep]
    exact List.append_nil _
  rw [Path.ofText, hnames, farUp, String.toList_ofList]
  rfl

theorem targetNames_farUp (n : Nat) : targetNames (farUp (n + 1)) = upNames (n + 1) ++ ["."] := by
  have hlast : (Text.pieces '/' (farUp (n + 1)).toList).getLast? = some [] := by
    rw [farUp, String.toList_ofList, pieces_farUp, List.getLast?_concat]
  rw [targetNames, ofText_farUp, hlast]

variable {d : Disk} {n k : Nat} {look : Path → Option String} {known : Known}

/-- The root lies above itself. -/
theorem advance_upNames (d : Disk) (follow : Bool) (n : Nat) (more : List String) :
    d.advance follow [] (upNames n ++ more) = d.advance follow [] more := by
  induction n with
  | zero => rfl
  | succ n ih =>
      rw [upNames, List.replicate_succ, List.cons_append, advance, if_pos rfl]
      exact ih

/-- The spot that is written with dots alone. -/
def upSpot (n : Nat) : Spot := ⟨.here, upNames n⟩

theorem path_upSpot (n : Nat) : (upSpot n).path = ⟨.here, upNames n⟩ := by
  simp [upSpot, Spot.path, upNames]

theorem above_upSpot (n : Nat) : (upSpot n).above = upSpot (n + 1) := by
  cases n <;> rfl

/-- Dots are written one after the other. -/
theorem settle_upNames (rest : List Step) :
    settle look known (upSpot k) ((upNames n).map .enter ++ rest) =
      settle look known (upSpot (k + n)) rest := by
  induction n generalizing k with
  | zero => rfl
  | succ n ih =>
      rw [upNames, List.replicate_succ, List.map_cons, List.cons_append, settle_above, above_upSpot]
      exact (ih (k := k + 1)).trans (by rw [Nat.add_right_comm, Nat.add_assoc])

theorem text_upNames (n : Nat) (name : String) :
    Path.text ⟨.here, upNames n ++ [name]⟩ = Text.join "/" (upNames n ++ [name]) := by
  simp [Path.text, Root.text]

/-- The length of a name behind dots. -/
theorem size_upNames (n : Nat) (name : String) :
    Text.Utf8.size (Path.text ⟨.here, upNames n ++ [name]⟩) = 3 * n + Text.Utf8.size name := by
  induction n with
  | zero =>
      rw [text_upNames]
      simp [upNames, Text.join, Text.joinWith]
  | succ n ih =>
      rw [text_upNames] at ih ⊢
      obtain ⟨x, xs, hxs⟩ : ∃ x xs, upNames n ++ [name] = x :: xs :=
        List.exists_cons_of_ne_nil (by simp)
      have hjoin : Text.join "/" (upNames (n + 1) ++ [name]) =
          "../" ++ Text.join "/" (upNames n ++ [name]) := by
        rw [upNames, List.replicate_succ, List.cons_append, ← upNames, hxs, Text.join, Text.join,
          List.map_cons, List.map_cons, Text.joinWith, List.append_assoc, String.ofList_append,
          String.ofList_append]
        rfl
      rw [hjoin, Text.Utf8.size, String.utf8ByteSize_append, ← Text.Utf8.size, ← Text.Utf8.size, ih]
      have hdots : Text.Utf8.size "../" = 3 := by decide
      omega

/-- Above the root, names that are taken back leave nothing. -/
theorem settleNames_upNames (n : Nat) (more : List String) :
    Path.settleNames [] (upNames n ++ more) = Path.settleNames [] more := by
  induction n with
  | zero => rfl
  | succ n ih =>
      rw [upNames, List.replicate_succ, List.cons_append, Path.settleNames, if_pos rfl]
      exact ih

/-! ### A path that is too long -/

/-- A link that goes up, a link that leads aside, and directories behind it. -/
structure Overlong (d : Disk) (n : Nat) : Prop where
  here : d.here = []
  up : d.get? ["L"] = some (.link (farUp (n + 1)))
  aside : d.get? ["M"] = some (.link "s/sub")
  side : d.get? ["s"] = some .directory
  inner : d.get? ["sub", "s"] = some .directory
  cache : d.get? ["x", "s"] = some .directory
  plain : ∀ t, d.get? ["x"] ≠ some (.link t)
  limit : 2 ≤ d.settleLimit
  once : 3 * (n + 1) + 1 ≤ pathLimit
  twice : pathLimit < 6 * (n + 1) + 1

/-- The path over both links. -/
def overlongPath : Path := ⟨.here, ["L", "L", "M", "..", "x"]⟩

theorem path_enter_upSpot (n : Nat) (name : String) :
    ((upSpot n).enter name).path = ⟨.here, upNames n ++ [name]⟩ := by
  have hnames := Spot.path_enter (upSpot n) name
  rw [path_upSpot] at hnames
  exact congrArg (Path.mk .here) hnames

/-- A name behind dots is looked at if it is not too long. -/
theorem linkAt?_upSpot (hhere : d.here = []) {name : String} (hname : IsName name)
    (hsize : Text.Utf8.size name = 1) :
    d.linkAt? ((upSpot n).enter name).path =
      if 3 * n + 1 > pathLimit then none else d.targetAt? [name] := by
  have hstart : d.start ⟨.here, upNames n ++ [name]⟩ = [] := hhere
  have hshort : ¬Text.Utf8.size name > nameLimit := by rw [hsize]; decide
  have hwalk : d.walk false linkLimit [] (upNames n ++ [name]) = .ok ⟨[name], d.get? [name]⟩ :=
    walk_place ((d.advance_upNames false n [name]).trans
      (advance_name hname.2 hname.1 hshort (.inl rfl)))
  unfold linkAt? locate
  rw [path_enter_upSpot]
  simp only [hstart, get?_root, hwalk, size_upNames, hsize]
  by_cases hlong : 3 * n + 1 > pathLimit
  · simp [hlong]
  · simp only [hlong, if_false, bne_self_eq_false, Bool.and_false, Bool.false_eq_true, targetAt?]
    rcases d.get? [name] with _ | _ | _ | _ <;> rfl

namespace Overlong

/-- The link that goes up leads to more dots, where it is looked at and new. -/
theorem cross_up (h : Overlong d n) (fuel : Nat) (hk : 3 * k + 1 ≤ pathLimit)
    (hnew : known.lookup ((upSpot k).enter "L") = none) (rest : List Step) :
    ∃ known', (∀ y, y ≠ (upSpot k).enter "L" → known'.lookup y = known.lookup y) ∧
      settleAll d.linkAt? (fuel + 1) known (upSpot k) (.enter "L" :: rest) =
        settleAll d.linkAt? fuel known' (upSpot (k + (n + 1))) rest := by
  refine ⟨((upSpot k).enter "L", some (upSpot (k + (n + 1)))) :: ((upSpot k).enter "L", none) ::
    known, fun y hy => by rw [lookup_note, if_neg hy, lookup_note, if_neg hy], ?_⟩
  have hseen : d.linkAt? ((upSpot k).enter "L").path = some (farUp (n + 1)) := by
    rw [linkAt?_upSpot h.here ⟨by decide, by decide⟩ (by decide), if_neg (Nat.not_lt.2 hk),
      targetAt?_eq_some_iff]
    exact h.up
  have hlink : settle d.linkAt? known (upSpot k) (.enter "L" :: rest) =
      .link (upSpot k) "L" (farUp (n + 1)) known rest := by
    rw [settle, if_neg (by decide), hseen]
    simp only [hnew]
  rw [settleAll, hlink]
  simp only [ofText_farUp]
  exact settleAll_of_settle (settle_upNames _)

/-- What is written after both links, at a link that is not looked at. -/
theorem settled_eq (h : Overlong d n) (more : List String) :
    ∃ fuel known, d.settled d.linkAt? ⟨.here, "L" :: "L" :: "M" :: more⟩ =
      settleAll d.linkAt? fuel known ((upSpot (2 * (n + 1))).enter "M") (more.map .enter) := by
  obtain ⟨fuel, hfuel⟩ : ∃ k, d.settleLimit = k + 2 := ⟨d.settleLimit - 2, by have := h.limit; omega⟩
  obtain ⟨known₁, hother, hfirst⟩ := h.cross_up (fuel + 1) (k := 0) (by decide) List.lookup_nil
    (("L" :: "M" :: more).map .enter)
  have hnew : known₁.lookup ((upSpot (n + 1)).enter "L") = none :=
    hother _ fun heq => absurd (congrArg Spot.back heq) (by simp [upSpot, Spot.enter, upNames])
  obtain ⟨known₂, -, hsecond⟩ := h.cross_up fuel (k := n + 1) h.once hnew
    (("M" :: more).map .enter)
  refine ⟨fuel, known₂, ?_⟩
  rw [settled, hfuel]
  refine hfirst.trans ?_
  rw [Nat.zero_add]
  refine hsecond.trans (settleAll_of_settle ?_)
  have htwice : n + 1 + (n + 1) = 2 * (n + 1) := (Nat.two_mul _).symm
  rw [htwice, List.map_cons, settle_name (by decide)]
  rw [linkAt?_upSpot h.here ⟨by decide, by decide⟩ (by decide), if_pos]
  have := h.twice
  omega

/-- What is written behind dots is resolved from the root. -/
theorem resolve_of_settled (h : Overlong d n) {p : Path} (k : Nat) (more : List String)
    (hnul : hasNul p = false) (hsettled : d.settled d.linkAt? p = ⟨.here, upNames k ++ more⟩)
    (hloop : d.locate true ⟨.single, Path.settleNames [] more⟩ ≠ .error .loop) :
    d.resolve p = .ok ⟨.single, Path.settleNames [] more⟩ := by
  have hhere : (d.get? d.here != some .directory) = false := by rw [h.here]; rfl
  have habsolute : Path.absolute d.herePath ⟨.here, upNames k ++ more⟩ =
      ⟨.single, Path.settleNames [] more⟩ := by
    rw [← settleNames_upNames k more, herePath, h.here]
    rfl
  unfold Disk.resolve
  simp only [hnul, hsettled, hhere, habsolute, Bool.and_false, Bool.false_eq_true, if_false]

/-- **The resolution takes the name of the link back**, and comes to the root. -/
theorem resolve (h : Overlong d n) :
    d.resolve overlongPath = .ok ⟨.single, ["x"]⟩ ∧
      d.resolve overlongPath.parent = .ok ⟨.single, []⟩ := by
  have habove : ((upSpot (2 * (n + 1))).enter "M").above = upSpot (2 * (n + 1)) := by
    simp [Spot.above, Spot.enter]
  constructor
  · refine h.resolve_of_settled (2 * (n + 1)) ["x"] (by decide) ?_ ?_
    · obtain ⟨fuel, known, hsettled⟩ := h.settled_eq ["..", "x"]
      have hunseen : d.linkAt? ((upSpot (2 * (n + 1))).enter "x").path = none := by
        rw [linkAt?_upSpot h.here ⟨by decide, by decide⟩ (by decide), if_pos]
        have := h.twice
        omega
      have hend : settle d.linkAt? known ((upSpot (2 * (n + 1))).enter "M")
          (["..", "x"].map .enter) = .done ((upSpot (2 * (n + 1))).enter "x") := by
        rw [List.map_cons, settle_above, habove, List.map_cons, settle_name (by decide) hunseen]
        rfl
      rw [overlongPath, hsettled, settleAll, hend]
      exact path_enter_upSpot _ _
    · have hwalk : d.walk true linkLimit [] ["x"] = .ok ⟨["x"], d.get? ["x"]⟩ :=
        walk_place (advance_name (by decide) (by decide) (by decide) (.inr h.plain))
      have hshort : ¬Text.Utf8.size (Path.text ⟨.single, ["x"]⟩) > pathLimit := by decide
      change d.locate true ⟨.single, ["x"]⟩ ≠ _
      simp [locate, hshort, start, hwalk]
  · refine h.resolve_of_settled (2 * (n + 1)) [] (by decide) ?_ ?_
    · obtain ⟨fuel, known, hsettled⟩ := h.settled_eq [".."]
      have hend : settle d.linkAt? known ((upSpot (2 * (n + 1))).enter "M")
          ([".."].map .enter) = .done (upSpot (2 * (n + 1))) := by
        rw [List.map_cons, settle_above, habove]
        rfl
      have hparent : overlongPath.parent = ⟨.here, "L" :: "L" :: "M" :: [".."]⟩ := rfl
      rw [hparent, hsettled, settleAll, hend, List.append_nil]
      exact path_upSpot _
    · have hwalk : d.walk true linkLimit [] [] = .ok ⟨[], some .directory⟩ := walk_place rfl
      have hshort : ¬Text.Utf8.size (Path.text ⟨.single, []⟩) > pathLimit := by decide
      change d.locate true ⟨.single, []⟩ ≠ _
      simp [locate, hshort, start, hwalk]

/-- **The system follows the link**, and comes to another directory. -/
theorem find (h : Overlong d n) :
    d.find true overlongPath = .ok ⟨["x", "s"], some .directory⟩ := by
  have hup (more : List String) :
      d.advance true [] ("L" :: more) = .ok (.link [] (farUp (n + 1)) more) := by
    rw [advance, if_neg (by decide), if_neg (by decide), if_neg (by decide), h.up]
    simp
  have hfar (more : List String) : d.advance true [] (targetNames (farUp (n + 1)) ++ more) =
      d.advance true [] more := by
    rw [targetNames_farUp, List.append_assoc, advance_upNames]
    rfl
  have hstart : linkStart [] (Path.ofText (farUp (n + 1))) = [] := by rw [ofText_farUp]; rfl
  have hsecond := (hfar ["L", "M", "..", "x"]).trans (hup ["M", "..", "x"])
  have hthird : d.advance true [] (targetNames (farUp (n + 1)) ++ ["M", "..", "x"]) =
      .ok (.link [] "s/sub" ["..", "x"]) := by
    rw [hfar, advance, if_neg (by decide), if_neg (by decide), if_neg (by decide), h.aside]
    simp
  have hlast : d.advance true [] (targetNames "s/sub" ++ ["..", "x"]) =
      .ok (.place ⟨["x", "s"], some .directory⟩) := by
    have hnames : targetNames "s/sub" = ["s", "sub"] := by decide
    have hshort (name : String) (hname : name ∈ ["s", "sub", "x"]) :
        ¬Text.Utf8.size name > nameLimit := by
      revert name
      decide
    rw [hnames]
    simp [advance, hshort, h.side, h.inner, h.cache]
  have hwalk : d.walk true linkLimit [] ["L", "L", "M", "..", "x"] =
      .ok ⟨["x", "s"], some .directory⟩ := by
    rw [linkLimit, walk_link_succ (hup _), hstart, walk_link_succ hsecond, hstart,
      walk_link_succ hthird]
    exact walk_place hlast
  have hhere : d.start overlongPath = [] := h.here
  refine find_eq_ok_iff.2 ⟨⟨by decide, by decide, fun _ => ?_⟩, ?_⟩
  · rw [hhere, get?_root]
  · rw [hhere]
    exact hwalk

end Overlong

end Disk

end ReleaseFetch
