/-
**Assets of different releases do not mix.**

The name of an asset joins the tool, the version and the target by dashes, and versions and targets
have dashes of their own.  The name is read back all the same: no target of the list is the end of
another one behind a dash, so what comes before the target is known.  Hence a call that is about one
asset works on a name that no other asset has.  Beside it only the binary is written, which never
has the name of an asset, even where the destination is the cache; a tool whose name names a
directory cannot be installed at all.

Main definitions:

* `ReleaseFetch.Disk.Named`, `ReleaseFetch.Motion.into` — changes to files of some names, once a
  directory is there;
* `ReleaseFetch.Cache.Call.subject?` — the version and the target that a call is about.

Main results:

* `ReleaseFetch.Installer.assetName_injective` — the name of an asset is read back;
* `ReleaseFetch.Installer.install_named` — an installation changes files of two names only;
* `ReleaseFetch.Cache.call_named` — and so does every call that is about an asset;
* `ReleaseFetch.Cache.assets_apart` — assets of different releases do not mix.
-/

import ReleaseFetch.Proofs.Install.Frame
import ReleaseFetch.Proofs.Install.Integrity

set_option autoImplicit false

namespace ReleaseFetch

open Disk Session

/-! ### Names -/

/-- No target of the list is the end of another one behind a dash. -/
theorem supportedTargets_apart : ∀ t ∈ supportedTargets, ∀ t' ∈ supportedTargets,
    ¬ '-' :: t.toList <:+ t'.toList := by decide +kernel

theorem noSlash_supportedTargets : ∀ t ∈ supportedTargets, '/' ∉ t.toList := by decide +kernel

/-- What is joined by a mark is read back, if neither end is the end of the other behind a mark. -/
theorem eq_of_append_mark {α : Type} {mark : α} {xs ys as bs : List α} (has : ¬mark :: as <:+ bs)
    (hbs : ¬mark :: bs <:+ as) (h : xs ++ mark :: as = ys ++ mark :: bs) : xs = ys ∧ as = bs := by
  -- one of the fronts goes on where the other stops; what it goes on with would be in an end
  rcases List.append_eq_append_iff.1 h with ⟨zs, hys, hzs⟩ | ⟨zs, hxs, hzs⟩
  · cases zs with
    | nil => exact ⟨by simpa using hys.symm, (List.cons.inj hzs).2⟩
    | cons z zs => exact absurd ⟨zs, (List.cons.inj hzs).2.symm⟩ hbs
  · cases zs with
    | nil => exact ⟨by simpa using hxs, (List.cons.inj hzs).2.symm⟩
    | cons z zs => exact absurd ⟨zs, (List.cons.inj hzs).2.symm⟩ has

namespace Installer

variable {i : Installer} {o : Order} {h : Host} {c : Client} {limit : Int}

/-- **The name of an asset is read back**: it belongs to one version and one target of the list. -/
theorem assetName_injective {version version' target target' : String}
    (htarget : target ∈ supportedTargets) (htarget' : target' ∈ supportedTargets)
    (heq : i.assetName version target = i.assetName version' target') :
    version = version' ∧ target = target' := by
  have hlists := congrArg String.toList heq
  rw [assetName_toList, assetName_toList] at hlists
  simp only [List.append_assoc, List.cons_append] at hlists
  have hrest := (List.cons.inj (List.append_cancel_left hlists)).2
  rw [← List.cons_append, ← List.append_assoc, ← List.cons_append, ← List.append_assoc] at hrest
  obtain ⟨hversion, htargets⟩ := eq_of_append_mark
    (supportedTargets_apart target htarget target' htarget')
    (supportedTargets_apart target' htarget' target htarget) (List.append_cancel_right hrest)
  exact ⟨String.toList_injective hversion, String.toList_injective htargets⟩

end Installer

/-! ### Files of some names -/

/-- The location is that of an entry of such a name. -/
def Disk.Named (N : String → Prop) (l : Location) : Prop := ∃ n above, N n ∧ l = n :: above

/-- Changes at paths that lead to entries of such names. -/
theorem Disk.Edited.named {P : Path → Prop} {N : String → Prop} {d e : Disk}
    (h : Edited (fun l => ∃ p, P p ∧ l = d.locationOf p) d e)
    (hP : ∀ p, P p → ∀ d : Disk, Named N (d.locationOf p)) : Edited (Named N) d e := by
  refine h.mono ?_
  rintro l ⟨p, hp, rfl⟩
  exact hP p hp d

/-- Changes to files of some names only, once a directory is there. -/
def Motion.into (directory : Path) (N : String → Prop) : Motion where
  rel w w' :=
    w.disk.Plain → w.disk.seen directory = some .directory → Edited (Named N) w.disk w'.disk
  refl _ hw _ := Edited.refl hw
  trans h h' hu hdir :=
    have hv := h hu hdir
    hv.trans (h' hv.plain (hv.toWithin.seen hdir))
  journal _ _ hw _ := Edited.refl hw

theorem Session.Moves.into_of_edits {α : Type} {x : Session α} {P : Path → Prop}
    {directory : Path} {N : String → Prop} (hx : x.Moves (Motion.edits P))
    (hP : ∀ p, P p → ∀ d : Disk, Named N (d.locationOf p)) : x.Moves (Motion.into directory N) :=
  fun w hw _ => (hx w hw).named hP

namespace Installer

variable {i : Installer} {o : Order} {h : Host} {c : Client} {limit : Int} {N : String → Prop}

/-- The path of an asset leads to an entry of its name. -/
theorem named_assetPath {version target : String}
    (hname : IsEntryName (i.assetName version target)) (hN : N (i.assetName version target)) :
    ∀ p, p = i.assetPath version target → ∀ d : Disk, Named N (d.locationOf p) := by
  rintro p rfl d
  exact ⟨_, _, hN, d.locationOf_child i.cacheDir hname⟩

/-- Placing an asset changes files of the installed name only. -/
theorem place_into (htool : '/' ∉ i.config.toolName.toList) (hN : N i.installedName)
    (asset directory : Path) : (i.place asset directory).Moves (Motion.into directory N) := by
  by_cases hentry : IsEntryName i.installedName
  · have hedits : (i.place asset directory).Moves
        (Motion.edits (· = directory.child i.installedName)) := place_edits asset rfl
    refine Moves.into_of_edits hedits fun p hp d => ?_
    rw [hp]
    exact ⟨_, _, hN, d.locationOf_child directory hentry⟩
  · intro w hw hdir
    obtain ⟨f, v, hcopy, hedit⟩ := Files.copyExecutable_refused asset
      (noSlash_installedName htool) hentry hw hdir
    have hplace : (i.place asset directory).perform w = (.error f, v) := by
      rw [place, perform_bind, extract, perform_bind, hcopy]
    rw [hplace]
    exact hedit.mono fun _ => False.elim

/-- Obtaining an asset changes files of its name only. -/
theorem obtain_named (htransport : i.transport = .stream h c limit) (hcache : i.cacheDir.Readable)
    (hname : IsEntryName (i.assetName o.version o.target))
    (hN : N (i.assetName o.version o.target)) {w : World} (hw : w.disk.Plain) :
    Edited (Named N) w.disk ((i.obtain o).perform w).2.disk := by
  have hedits : (i.obtain o).Moves (Motion.edits (· = i.assetPath o.version o.target)) :=
    obtain_edits htransport hcache hname rfl
  exact (hedits w hw).named (named_assetPath hname hN)

/-- **An installation changes files of two names only**: that of the asset, and that of the binary.
-/
theorem install_named (htransport : i.transport = .stream h c limit) (hcache : i.cacheDir.Readable)
    (htool : '/' ∉ i.config.toolName.toList)
    (hname : IsEntryName (i.assetName o.version o.target))
    (hasset : N (i.assetName o.version o.target)) (hbinary : N i.installedName) {w : World}
    (hw : w.disk.Plain) : Edited (Named N) w.disk ((i.install o).perform w).2.disk := by
  rw [install_eq, perform_bind, perform_give]
  cases o.check.mapError Failure.problem with
  | error f => exact Edited.refl hw
  | ok u =>
      simp only
      have hmade := Files.ensureDirectory_edited o.destination hw
      rw [perform_bind]
      rcases hensure : (Files.ensureDirectory o.destination).perform w with ⟨result, v⟩
      rw [hensure] at hmade
      have hmade' : Edited (Named N) w.disk v.disk := hmade.mono fun _ => False.elim
      cases result with
      | error f => exact hmade'
      | ok u =>
          -- from here on the destination is there, so that nothing is copied over a directory
          have hrest : (i.obtain o >>= i.finish o).Moves (Motion.into o.destination N) := by
            have hpath := named_assetPath hname hasset
            refine .bind (Moves.into_of_edits (P := (· = i.assetPath o.version o.target))
              (obtain_edits htransport hcache hname rfl) hpath) ?_
            intro asset
            exact finish_moves (place_into htool hbinary asset o.destination)
              (Moves.into_of_edits (P := (· = i.assetPath o.version o.target))
                (Files.discard_edits rfl) hpath)
          exact hmade'.trans
            (hrest v hmade.plain (Files.stands_of_ensureDirectory hw hensure).seen)

end Installer

/-! ### Calls -/

namespace Cache

variable {i : Installer} {h : Host} {c : Client} {limit : Int}

/-- The version and the target that a call is about. -/
def Call.subject? : Call → Option (String × String)
  | .install o | .obtain o => some (o.version, o.target)
  | .invalidate version target | .isCached version target => some (version, target)
  | .clear => none

/-- **A call that is about an asset changes files of two names only.** -/
theorem call_named {N : String → Prop} (htransport : i.transport = .stream h c limit)
    (hcache : i.cacheDir.Readable) (htool : '/' ∉ i.config.toolName.toList) {call : Call}
    {version target : String} (hcall : call.subject? = some (version, target))
    (hname : IsEntryName (i.assetName version target)) (hasset : N (i.assetName version target))
    (hbinary : N i.installedName) {w : World} (hw : w.disk.Plain) :
    Edited (Named N) w.disk (call.perform i w).disk := by
  cases call with
  | install o =>
      obtain ⟨rfl, rfl⟩ := Prod.mk.inj (Option.some.inj hcall)
      exact Installer.install_named htransport hcache htool hname hasset hbinary hw
  | obtain o =>
      obtain ⟨rfl, rfl⟩ := Prod.mk.inj (Option.some.inj hcall)
      exact Installer.obtain_named htransport hcache hname hasset hw
  | invalidate version target =>
      obtain ⟨rfl, rfl⟩ := Prod.mk.inj (Option.some.inj hcall)
      rw [Call.perform]
      have hdiscard : (i.invalidate version target).Moves
          (Motion.edits (· = i.assetPath version target)) := Files.discard_edits rfl
      exact (hdiscard w hw).named (Installer.named_assetPath hname hasset)
  | isCached version target =>
      rw [Call.perform, Installer.isCached, perform_look]
      exact Edited.refl hw
  | clear => cases hcall

/-- **Assets of different releases do not mix.**  The name of an asset belongs to one version and
one target of the list; and a call that is about one asset, however it ends, neither makes nor
changes nor deletes a file where the path of another one leads. -/
theorem assets_apart :
    (∀ (i : Installer) (version version' target target' : String),
      target ∈ supportedTargets → target' ∈ supportedTargets →
      i.assetName version target = i.assetName version' target' →
      version = version' ∧ target = target') ∧
    ∀ (i : Installer) (h : Host) (c : Client) (limit : Int)
      (version version' target target' : String) (call : Call) (w : World),
      i.transport = .stream h c limit → i.cacheDir.Readable → '/' ∉ i.config.toolName.toList →
      '/' ∉ version.toList → '/' ∉ version'.toList →
      target ∈ supportedTargets → target' ∈ supportedTargets →
      (version, target) ≠ (version', target') → w.disk.Plain →
      call.subject? = some (version, target) → ∀ b m,
        (call.perform i w).disk.get? (w.disk.locationOf (i.assetPath version' target')) =
            some (.file b m) ↔
          w.disk.get? (w.disk.locationOf (i.assetPath version' target')) = some (.file b m) := by
  refine ⟨fun i _ _ _ _ htarget htarget' heq =>
    Installer.assetName_injective htarget htarget' heq, ?_⟩
  intro i h c limit version version' target target' call w htransport hcache htool hversion
    hversion' htarget htarget' hne hw hcall b m
  have hname := Installer.isEntryName_assetName htool hversion
    (noSlash_supportedTargets target htarget)
  have hname' := Installer.isEntryName_assetName htool hversion'
    (noSlash_supportedTargets target' htarget')
  have hedit := call_named (N := fun n => n = i.assetName version target ∨ n = i.installedName)
    htransport hcache htool hcall hname (.inl rfl) (.inr rfl) hw
  refine hedit.file_iff ?_ b m
  -- neither of the two names is that of the other asset
  rintro ⟨n, above, hn, hl⟩
  rw [Installer.assetPath, locationOf_child _ _ hname'] at hl
  obtain ⟨rfl, -⟩ := List.cons.inj hl
  rcases hn with hasset | hbinary
  · obtain ⟨rfl, rfl⟩ := Installer.assetName_injective htarget' htarget hasset
    exact hne rfl
  · exact i.assetName_ne_installed version' target' hbinary

/-- An order for the second version, into the cache itself. -/
def cacheOrder : Order := ⟨"v2", "linux-x86_64", ⟨.here, ["cache"]⟩, true, none⟩

/-- A disk with the asset of the first version, which ends like the name of a target. -/
def firstRelease : Disk :=
  ⟨[(["cache"], .directory), (["tool-v1-linux-x86_64", "cache"], .file [0] 0o644)], []⟩

/-- The answers to the order: the description of a release, and a body. -/
def secondAnswers : List Answer :=
  [.reply ⟨200, [],
      "\x7b\"assets\": [\x7b\"name\": \"tool-v2-linux-x86_64\", \"url\": \"https://a.org/x\"\x7d]\x7d",
      []⟩,
    .reply ⟨200, [], "", [.bytes [1]]⟩]

/-- An installation of the second version into the cache leaves the asset of the first one. -/
theorem assets_apart_upgraded :
    let i := Installer.streaming ⟨.here, ["cache"]⟩
    let w := (Call.install cacheOrder).perform i (.fresh firstRelease secondAnswers)
    i.assetName "v1" "linux-x86_64" ≠ i.assetName "v2" "linux-x86_64" ∧
      w.disk.get? ["tool", "cache"] = some (.file [1] Files.executableMode) ∧
      w.disk.get? ["tool-v1-linux-x86_64", "cache"] = some (.file [0] 0o644) := by
  intro i w
  have hrun : (Call.install cacheOrder).perform i (.fresh firstRelease secondAnswers) = w := rfl
  have hbinary : ((Call.install cacheOrder).perform i (.fresh firstRelease secondAnswers)).disk.get?
      ["tool", "cache"] = some (.file [1] Files.executableMode) := by
    decide +kernel
  -- in the words of the statement, so that the run is not compared with itself
  rw [hrun] at hbinary
  refine ⟨fun heq => ?_, hbinary, ?_⟩
  · have hversion := (assets_apart.1 i "v1" "v2" "linux-x86_64" "linux-x86_64" (by decide +kernel)
      (by decide +kernel) heq).1
    revert hversion
    decide
  · have hpath : firstRelease.locationOf (i.assetPath "v1" "linux-x86_64") =
        ["tool-v1-linux-x86_64", "cache"] := by decide +kernel
    have hkept := assets_apart.2 i ⟨"linux", "x86_64", []⟩ .own 5 "v2" "v1" "linux-x86_64"
      "linux-x86_64" (.install cacheOrder) (.fresh firstRelease secondAnswers) rfl
      (by simp [i, Path.Readable, Installer.streaming, Installer.ofTool]) (by decide) (by decide)
      (by decide) (by decide +kernel) (by decide +kernel) (by decide)
      (plain_of_isPlain (by decide)) rfl [0] 0o644
    rw [hrun] at hkept
    exact (hpath ▸ hkept).2 (by decide +kernel)

end Cache

end ReleaseFetch
