/-
**The integrity of a cache.**

Whatever is done with a cache, in whatever order and whatever the network answers, each file that
stands in it under the name of an asset holds the whole body of a success, which came in while an
asset of that name was obtained; and no private file is left.  The invariant speaks of the files of
the cache directory: each is an asset with known bytes, or it has the name that binaries are
installed under.  Most steps only make files fewer or change their modes; the invariant needs to be
looked at where a body arrives and where a binary is copied.

Main definitions:

* `ReleaseFetch.Disk.Older`, `ReleaseFetch.Motion.older` — files have their bytes from before;
* `ReleaseFetch.Cache.Call`, `ReleaseFetch.Cache.run` — what may be done with a cache;
* `ReleaseFetch.Cache.Streamed` — a reply that was asked for as a stream and read;
* `ReleaseFetch.Cache.Sound` — the invariant.

Main results:

* `ReleaseFetch.Cache.step_obtain`, `ReleaseFetch.Cache.step_install`,
  `ReleaseFetch.Cache.step_call` — one call;
* `ReleaseFetch.Cache.sound_run` — a run of calls;
* `ReleaseFetch.Cache.run_intact` — what stands in the cache after a run;
* `ReleaseFetch.Cache.old_behind_missing` — a cache that is not as empty as it looks.
-/

import Mathlib.Data.List.Induction
import ReleaseFetch.Proofs.Install.Placement

set_option autoImplicit false

namespace ReleaseFetch

open Disk Session

/-! ### Files that were there before -/

/-- Every file of the second disk, away from the locations of `S`, has its bytes from the first. -/
structure Disk.Older (S : Location → Prop) (d e : Disk) : Prop where
  plain : e.Plain
  here : e.here = d.here
  bytes : ∀ l, ¬S l → ∀ b m, e.get? l = some (.file b m) → ∃ k, d.get? l = some (.file b k)

/-- The motion after which files, away from some locations, have their bytes from before. -/
def Motion.older (S : Location → Prop) : Motion where
  rel w w' := w.disk.Plain → Older S w.disk w'.disk
  refl _ hw := ⟨hw, rfl, fun _ _ _ m hb => ⟨m, hb⟩⟩
  trans := by
    intro u v w h h' hu
    have hv := h hu
    have hw := h' hv.plain
    refine ⟨hw.plain, hw.here.trans hv.here, fun l hl b m hb => ?_⟩
    obtain ⟨k, hk⟩ := hw.bytes l hl b m hb
    exact hv.bytes l hl b k hk
  journal _ _ hw := ⟨hw, rfl, fun _ _ _ m hb => ⟨m, hb⟩⟩

theorem Disk.Edited.older {S T : Location → Prop} {d e : Disk} (h : Edited T d e)
    (hT : ∀ l, T l → S l) : Older S d e :=
  ⟨h.plain, h.here, fun l hl b m hb => ⟨m, (h.file_iff (fun ht => hl (hT l ht)) b m).1 hb⟩⟩

theorem Disk.Plain.eraseTree {d : Disk} (hd : d.Plain) (l : Location) : (d.eraseTree l).Plain := by
  have hsame : ∀ {k : Location}, (d.eraseTree l).get? k ≠ none →
      (d.eraseTree l).get? k = d.get? k := by
    intro k hk
    by_cases hnil : k = []
    · rw [hnil]
      rfl
    · rw [get?_eraseTree d l k hnil] at hk ⊢
      split at hk
      · exact absurd rfl hk
      · next hl => rw [if_neg hl]
  refine ⟨⟨?_, ?_⟩, ?_⟩
  · intro n k hk
    have hdir := hd.rooted (hsame hk ▸ hk)
    by_cases hnil : k = []
    · rw [hnil]
      rfl
    · -- what is above an entry that stays is not below the tree that goes
      rw [get?_eraseTree d l (n :: k) (by simp)] at hk
      rw [get?_eraseTree d l k hnil, hdir]
      split at hk
      · exact absurd rfl hk
      · next hl =>
        rw [if_neg]
        intro hk'
        rw [List.isSuffixOf_iff_suffix] at hl hk'
        exact hl (hk'.trans (List.suffix_cons n k))
  · intro n k hk
    exact hd.named (hsame hk ▸ hk)
  · intro k t hk
    have hne : (d.eraseTree l).get? k ≠ none := by rw [hk]; simp
    exact hd.linkless k t (hsame hne ▸ hk)

/-- Files become fewer when a tree is removed. -/
theorem Disk.Plain.older_eraseTree {S : Location → Prop} {d : Disk} (hd : d.Plain) (l : Location) :
    Older S d (d.eraseTree l) := by
  refine ⟨hd.eraseTree l, rfl, fun k _ b m hb => ⟨m, ?_⟩⟩
  by_cases hnil : k = []
  · rw [hnil] at hb
    cases hb
  · rw [get?_eraseTree d l k hnil] at hb
    split at hb
    · cases hb
    · exact hb

theorem Disk.Plain.older_removeDirectory {S : Location → Prop} {d e : Disk} (hd : d.Plain) {p : Path}
    (h : d.removeDirectory p = .ok e) : Older S d e := by
  unfold removeDirectory at h
  split at h
  · cases h
  · split at h
    · cases h
    · obtain rfl := Except.ok.inj h
      exact hd.older_eraseTree _

section Steps

variable {S : Location → Prop}

/-- Where no new file stands, files have their bytes from before. -/
theorem Motion.older_of_spares {p : Path} {w w' : World} (h : (Motion.spares p).rel w w') :
    (Motion.older S).rel w w' := by
  intro hw
  obtain ⟨hedit, hfile⟩ := h hw
  refine ⟨hedit.plain, hedit.here, fun l _ b m hb => ⟨m, ?_⟩⟩
  by_cases hl : l = w.disk.locationOf p
  · rw [hl] at hb ⊢
    exact hfile b m hb
  · exact (hedit.file_iff hl b m).1 hb

namespace Files

theorem discard_older (p : Path) : (discard p).Moves (Motion.older S) :=
  fun w => Motion.older_of_spares (discard_spares p w)

theorem makeExecutable_older (p : Path) : (makeExecutable p).Moves (Motion.older S) := by
  intro w hw
  unfold makeExecutable
  rw [perform_change]
  split
  · next d hd =>
    rcases setMode_ok hw hd with ⟨rfl, -⟩ | ⟨b, m, hopen, hfile, rfl⟩
    · exact ⟨hw, rfl, fun _ _ _ m hb => ⟨m, hb⟩⟩
    · refine ⟨hw.put hopen (by simp), rfl, fun l _ b' k hb => ?_⟩
      rw [hopen.get?_put] at hb
      split at hb
      · next hl =>
        obtain ⟨rfl, -⟩ := Entry.file.inj (Option.some.inj hb)
        exact ⟨m, hl ▸ hfile⟩
      · exact ⟨k, hb⟩
  · exact ⟨hw, rfl, fun _ _ _ m hb => ⟨m, hb⟩⟩

theorem removeTree_older (p : Path) (under : Option Path) :
    (removeTree p under).Moves (Motion.older S) := by
  unfold removeTree
  refine .bind (.look _) fun p => .bind ?_ fun _ => .bind (.look _) fun found => ?_
  · cases under with
    | none => exact .pure _
    | some limit =>
        refine .bind (.look _) ?_
        intro limit
        split
        · exact .throw _
        · exact .pure _
  · cases found with
    | false => exact .pure _
    | true =>
        refine .bind (.look _) ?_
        intro isDirectory
        cases isDirectory with
        | false => exact .fail _
        | true =>
            intro w hw
            rw [if_pos rfl, perform_change]
            split
            · next d hd => exact hw.older_removeDirectory hd
            · exact ⟨hw, rfl, fun _ _ _ m hb => ⟨m, hb⟩⟩

end Files

end Steps

/-! ### Placing a binary -/

/-- Files that do not have the installed name have their bytes from before a copy. -/
theorem Files.copyExecutable_older {source directory : Path} {name : String}
    (hname : '/' ∉ name.toList) {w : World} (hw : w.disk.Plain)
    (hdir : w.disk.seen directory = some .directory) :
    Older (fun l => ∃ above, l = name :: above) w.disk
      ((copyExecutable source (directory.child name)).perform w).2.disk := by
  by_cases hentry : IsEntryName name
  · have hedits : (copyExecutable source (directory.child name)).Moves
        (Motion.edits (· = directory.child name)) := copyExecutable_edits rfl
    refine (hedits w hw).older ?_
    rintro l ⟨p, rfl, rfl⟩
    exact ⟨_, w.disk.locationOf_child directory hentry⟩
  · obtain ⟨f, v, hcopy, hedit⟩ := copyExecutable_refused source hname hentry hw hdir
    rw [hcopy]
    exact hedit.older fun _ hl => hl.elim

namespace Installer

variable {i : Installer}

/-- **Placing a binary makes no file but one of the installed name.** -/
theorem place_older (htool : '/' ∉ i.config.toolName.toList) (asset : Path) {directory : Path}
    {w : World} (hw : w.disk.Plain) (hdir : w.disk.seen directory = some .directory) :
    Older (fun l => ∃ above, l = i.installedName :: above) w.disk
      ((i.place asset directory).perform w).2.disk := by
  have hextract : (Motion.older fun l => ∃ above, l = i.installedName :: above).rel w
      ((i.extract asset directory).perform w).2 := by
    unfold extract
    refine Moves.bind_at (fun hw => Files.copyExecutable_older (noSlash_installedName htool) hw hdir)
      fun _ => .bind (Files.findBinary_moves _ _) fun binary => ?_
    cases binary with
    | none => exact .fail _
    | some p => exact .pure _
  unfold place
  refine Moves.bind_at hextract (fun binary => ?_) hw
  cases i.host.isWindows with
  | true => exact .pure _
  | false => exact .bind (Files.makeExecutable_older binary) fun _ => .pure _

theorem finish_older (htool : '/' ∉ i.config.toolName.toList) (o : Order) (asset : Path) {w : World}
    (hw : w.disk.Plain) (hdir : w.disk.seen o.destination = some .directory) :
    Older (fun l => ∃ above, l = i.installedName :: above) w.disk
      ((i.finish o asset).perform w).2.disk := by
  let v : World := { w with
    journal := w.journal ++
      [⟨.info, .installer, s!"Extracting to {o.destination.text}", false⟩] }
  unfold finish
  rw [perform_bind, perform_log]
  refine Moves.bind_at (T := Motion.older fun l => ∃ above, l = i.installedName :: above)
    (x := attempt (i.place asset o.destination)) (w := v)
    (fun hw => place_older htool asset hw hdir) (fun result => ?_) hw
  cases result with
  | ok binary => exact .bind (.log _ _ _) fun _ => .pure _
  | error f =>
      simp only
      cases f.isInterrupt with
      | true => exact .throw f
      | false => exact .bind (.log _ _ _) fun _ => .bind (Files.discard_older _) fun _ => .throw f

end Installer

namespace Cache

/-! ### What comes in -/

/-- Between two worlds, a request for a stream was answered with the reply, which was read in parts
and closed. -/
def Streamed (w w' : World) (r : Reply) : Prop :=
  ∃ n x, w.answers[n]? = some (.reply r) ∧ w'.exchanges[w.exchanges.length + n]? = some x ∧
    x.request.streamed = true ∧ x.answered = true ∧ x.closed = true ∧
    x.chunkSize = some Stream.chunkSize

/-- Between two worlds, the whole body of a success came in. -/
def Brings (w w' : World) (b : List UInt8) : Prop :=
  ∃ r, Streamed w w' r ∧ r.status = 200 ∧ r.body? = some b

/-- What happens around it without traffic does not matter. -/
theorem Brings.congr {w w' v v' : World} {b : List UInt8} (h : Brings v v' b)
    (hv : v.traffic = w.traffic) (hv' : w'.traffic = v'.traffic) : Brings w w' b := by
  obtain ⟨r, ⟨n, x, hanswer, hexchange, hx⟩, hr⟩ := h
  have ha : v.answers = w.answers := congrArg Traffic.answers hv
  have he : v.exchanges = w.exchanges := congrArg Traffic.exchanges hv
  have he' : w'.exchanges = v'.exchanges := congrArg Traffic.exchanges hv'
  exact ⟨r, ⟨n, x, ha ▸ hanswer, by rw [he', ← he]; exact hexchange, hx⟩, hr⟩

/-- The last reply of a download is the second one at the earliest: the first one described the
release. -/
theorem brings_of_fetched {q : Release.Query} {limit : Int} {b : List UInt8} {w w' : World}
    (h : Fetched q limit b w w') : Brings w w' b := by
  obtain ⟨a, r, hops, v, hfound, harrived, -⟩ := h
  obtain ⟨before, hop, rfl, hstatus⟩ := harrived.chain.exists_last
  obtain ⟨x, hx, -⟩ := hfound.exchanges
  obtain ⟨xs, hxs, hserves⟩ := harrived.exchanges
  -- the first answer of the run described the release, so the hops come one later
  have hlen : xs.length = before.length + 1 := by
    rw [hserves.length_eq, List.length_append, List.length_singleton]
  have hlast : before.length < xs.length := by omega
  have hserve : Stream.Serves xs[before.length] hop := by
    have hget := hserves.get hlast (by simp)
    simpa using hget
  refine ⟨hop.reply, ⟨before.length + 1, xs[before.length], ?_, ?_, hserve.streamed,
    hserve.answered, hserve.closed, ?_⟩, hstatus, ?_⟩
  · rw [hfound.answers, harrived.answers]
    simp
  · rw [hxs, hx, List.append_assoc, List.getElem?_append_right (Nat.le_add_right _ _),
      Nat.add_sub_cancel_left, List.singleton_append, List.getElem?_cons_succ,
      List.getElem?_eq_getElem hlast]
  · rw [hserve.chunkSize, if_pos hstatus]
  · simpa using harrived.body

/-! ### Calls -/

/-- What may be done with a cache. -/
inductive Call where
  | install (o : Order)
  | obtain (o : Order)
  | invalidate (version target : String)
  | isCached (version target : String)
  | clear

namespace Call

/-- The order of a call that may download. -/
def order? : Call → Option Order
  | install o | obtain o => some o
  | _ => none

/-- The world after a call, whatever it ends with. -/
def perform (i : Installer) (call : Call) (w : World) : World :=
  match call with
  | install o => ((i.install o).perform w).2
  | obtain o => ((i.obtain o).perform w).2
  | invalidate version target => ((i.invalidate version target).perform w).2
  | isCached version target => ((i.isCached version target).perform w).2
  | clear => ((Cache.clear i.cacheDir).perform w).2

/-- The call, made in a world, brings in the body of an asset of some name. -/
def Delivers (i : Installer) (call : Call) (w : World) (name : String) (b : List UInt8) : Prop :=
  ∃ o, call.order? = some o ∧ i.assetName o.version o.target = name ∧
    Brings w (call.perform i w) b

end Call

/-- The world after calls that are made one after the other. -/
def run (i : Installer) (calls : List Call) (w : World) : World :=
  calls.foldl (fun v call => call.perform i v) w

@[simp] theorem run_nil (i : Installer) (w : World) : run i [] w = w := rfl

theorem run_concat (i : Installer) (calls : List Call) (call : Call) (w : World) :
    run i (calls ++ [call]) w = call.perform i (run i calls w) := by
  simp [run]

/-! ### The invariant -/

/-- Every file of the cache directory is an asset with known bytes, or has the installed name. -/
def Sound (i : Installer) (K : String → List UInt8 → Prop) (d : Disk) : Prop :=
  ∀ n b m, d.get? (n :: d.locationOf i.cacheDir) = some (.file b m) →
    n = i.installedName ∨ K n b

variable {i : Installer} {K : String → List UInt8 → Prop}

theorem Sound.mono {K' : String → List UInt8 → Prop} {d : Disk} (h : Sound i K d)
    (hknown : ∀ n b, K n b → K' n b) : Sound i K' d :=
  fun n b m hb => (h n b m hb).imp_right (hknown n b)

/-- Files with their bytes from before are as sound as before. -/
theorem Sound.older {d e : Disk} (h : Sound i K d)
    (hde : Older (fun l => ∃ above, l = i.installedName :: above) d e) : Sound i K e := by
  intro n b m hb
  by_cases hn : n = i.installedName
  · exact .inl hn
  · rw [locationOf_of_here hde.here] at hb
    obtain ⟨k, hk⟩ := hde.bytes _ (fun ⟨above, heq⟩ => hn (List.cons.inj heq).1) b m hb
    exact h n b k hk

/-- What a step of the cache has to leave behind, if it may bring in some assets. -/
structure Step (i : Installer) (K brought : String → List UInt8 → Prop) (w w' : World) :
    Prop where
  plain : w'.disk.Plain
  here : w'.disk.here = w.disk.here
  sound : Sound i K w.disk → Sound i (fun n b => K n b ∨ brought n b) w'.disk

/-- A step after which files have their bytes from before. -/
theorem Step.of_older {brought : String → List UInt8 → Prop} {w w' : World}
    (h : Older (fun l => ∃ above, l = i.installedName :: above) w.disk w'.disk) :
    Step i K brought w w' :=
  ⟨h.plain, h.here, fun hsound => (hsound.older h).mono fun _ _ => .inl⟩

section Calls

variable {h : Host} {c : Client} {limit : Int}

/-- **Obtaining an asset is sound**, however it ends. -/
theorem step_obtain (htransport : i.transport = .stream h c limit) (hcache : i.cacheDir.Readable)
    {o : Order} (hname : IsEntryName (i.assetName o.version o.target)) {w : World}
    (hw : w.disk.Plain) :
    Step i K
      (fun n b => n = i.assetName o.version o.target ∧ Brings w ((i.obtain o).perform w).2 b) w
      ((i.obtain o).perform w).2 := by
  rcases hobtain : (i.obtain o).perform w with ⟨out, w'⟩
  cases Installer.obtain_spec htransport hcache hname hw hobtain with
  | cached notForced traffic edited => exact .of_older (edited.older fun _ => False.elim)
  | failed spared => exact .of_older (Motion.older_of_spares spared hw)
  | fetched asked fetched edited file =>
      refine ⟨edited.plain, edited.here, fun hsound n b m hb => ?_⟩
      rw [edited.locationOf] at hb
      have hasset : w.disk.locationOf (i.assetPath o.version o.target) =
          i.assetName o.version o.target :: w.disk.locationOf i.cacheDir :=
        w.disk.locationOf_child i.cacheDir hname
      rw [hasset] at edited file
      -- the file of this asset is new; every other file stood there before
      by_cases hn : n = i.assetName o.version o.target
      · subst hn
        obtain ⟨rfl, -⟩ := Entry.file.inj (Option.some.inj (hb.symm.trans file))
        exact .inr (.inr ⟨rfl, brings_of_fetched fetched⟩)
      · have hbefore := (edited.file_iff (fun heq => hn (List.cons.inj heq).1) b m).1 hb
        exact (hsound n b m hbefore).imp_right .inl

/-- A destination that stands there still does when an asset was obtained. -/
theorem within_obtain (htransport : i.transport = .stream h c limit)
    (hcache : i.cacheDir.Readable) {o : Order}
    (hname : IsEntryName (i.assetName o.version o.target)) {w w' : World} (hw : w.disk.Plain)
    {out : Except Failure Path} (hout : (i.obtain o).perform w = (out, w')) :
    w.disk.Within w'.disk := by
  cases Installer.obtain_spec htransport hcache hname hw hout with
  | cached notForced traffic edited => exact edited.toWithin
  | fetched asked fetched edited file => exact edited.toWithin
  | failed spared => exact (spared hw).1.toWithin

/-- **Installing an asset is sound**, however it ends. -/
theorem step_install (htransport : i.transport = .stream h c limit) (hcache : i.cacheDir.Readable)
    (htool : '/' ∉ i.config.toolName.toList) {o : Order}
    (hname : IsEntryName (i.assetName o.version o.target)) {w : World} (hw : w.disk.Plain) :
    Step i K
      (fun n b => n = i.assetName o.version o.target ∧ Brings w ((i.install o).perform w).2 b) w
      ((i.install o).perform w).2 := by
  rw [Installer.install_eq, perform_bind, perform_give]
  cases o.check.mapError Failure.problem with
  | error f => exact .of_older ((Motion.older _).refl w hw)
  | ok u =>
      simp only
      have hmade := Files.ensureDirectory_edited o.destination hw
      have htraffic := (Files.ensureDirectory_local o.destination).traffic w
      rw [perform_bind]
      rcases hensure : (Files.ensureDirectory o.destination).perform w with ⟨result, w₁⟩
      rw [hensure] at hmade htraffic
      have holder : Older (fun l => ∃ above, l = i.installedName :: above) w.disk w₁.disk :=
        hmade.older fun _ hl => hl.elim
      cases result with
      | error f => exact .of_older holder
      | ok u =>
          simp only
          have hstands := Files.stands_of_ensureDirectory hw hensure
          have hstep := step_obtain (K := K) htransport hcache hname hmade.plain
          rw [perform_bind]
          rcases hobtain : (i.obtain o).perform w₁ with ⟨result, w₂⟩
          have hwithin := within_obtain htransport hcache hname hmade.plain hobtain
          rw [hobtain] at hstep
          cases result with
          -- a destination was made and an asset may have come in, but nothing is placed
          | error f =>
              refine ⟨hstep.plain, hstep.here.trans holder.here, fun hsound => ?_⟩
              exact (hstep.sound (hsound.older holder)).mono fun _ _ =>
                .imp_right (.imp_right fun hbrings => hbrings.congr htraffic rfl)
          | ok asset =>
              simp only
              have hfinish := Installer.finish_older htool o asset hstep.plain
                (hwithin.seen hstands.seen)
              have htail := (Installer.finish_local i o asset).traffic w₂
              refine ⟨hfinish.plain, (hfinish.here.trans hstep.here).trans holder.here,
                fun hsound => ?_⟩
              exact ((hstep.sound (hsound.older holder)).older hfinish).mono fun _ _ =>
                .imp_right (.imp_right fun hbrings => hbrings.congr htraffic htail)

theorem clear_older {S : Location → Prop} (p : Path) : (clear p).Moves (Motion.older S) := by
  unfold clear
  refine .bind (.look _) ?_
  intro found
  cases found with
  | true => exact .bind (Files.removeTree_older p _) fun _ => .bind (.log _ _ _) fun _ => .pure _
  | false => exact .bind (.log _ _ _) fun _ => .pure _

/-- The version and the target that a call may download hold no slash. -/
def Call.Named (call : Call) : Prop :=
  ∀ o, call.order? = some o → '/' ∉ o.version.toList ∧ '/' ∉ o.target.toList

/-- **Every call is sound.** -/
theorem step_call (htransport : i.transport = .stream h c limit) (hcache : i.cacheDir.Readable)
    (htool : '/' ∉ i.config.toolName.toList) {call : Call} (hnamed : call.Named) {w : World}
    (hw : w.disk.Plain) : Step i K (call.Delivers i w) w (call.perform i w) := by
  cases call with
  | install o =>
      obtain ⟨hversion, htarget⟩ := hnamed o rfl
      have hname := Installer.isEntryName_assetName htool hversion htarget
      have hstep := step_install (K := K) htransport hcache htool hname hw
      refine ⟨hstep.plain, hstep.here, fun hsound => (hstep.sound hsound).mono fun n b => ?_⟩
      exact .imp_right fun ⟨hn, hbrings⟩ => ⟨o, rfl, hn.symm, hbrings⟩
  | obtain o =>
      obtain ⟨hversion, htarget⟩ := hnamed o rfl
      have hname := Installer.isEntryName_assetName htool hversion htarget
      have hstep := step_obtain (K := K) htransport hcache hname hw
      refine ⟨hstep.plain, hstep.here, fun hsound => (hstep.sound hsound).mono fun n b => ?_⟩
      exact .imp_right fun ⟨hn, hbrings⟩ => ⟨o, rfl, hn.symm, hbrings⟩
  | invalidate version target =>
      rw [Call.perform]
      have hmoves : (i.invalidate version target).Moves
          (Motion.older fun l => ∃ above, l = i.installedName :: above) := Files.discard_older _
      exact .of_older (hmoves w hw)
  | isCached version target =>
      rw [Call.perform]
      have hmoves : (i.isCached version target).Moves
          (Motion.older fun l => ∃ above, l = i.installedName :: above) := .look _
      exact .of_older (hmoves w hw)
  | clear =>
      rw [Call.perform]
      have hmoves : (clear i.cacheDir).Moves
          (Motion.older fun l => ∃ above, l = i.installedName :: above) := clear_older _
      exact .of_older (hmoves w hw)

/-- One of the calls of a run brought in the body of an asset of some name. -/
def Brought (i : Installer) (calls : List Call) (w : World) (name : String) (b : List UInt8) :
    Prop :=
  ∃ before call after, calls = before ++ call :: after ∧ call.Delivers i (run i before w) name b

/-- **A run of calls is sound**, from an empty cache on. -/
theorem sound_run (htransport : i.transport = .stream h c limit) (hcache : i.cacheDir.Readable)
    (htool : '/' ∉ i.config.toolName.toList) {w : World} (hw : w.disk.Plain)
    (hempty : ∀ n, w.disk.get? (n :: w.disk.locationOf i.cacheDir) = none) (calls : List Call)
    (hnamed : ∀ call ∈ calls, call.Named) :
    Step i (fun _ _ => False) (Brought i calls w) w (run i calls w) ∧
      Sound i (Brought i calls w) (run i calls w).disk := by
  -- the calls are taken from the last one on, so what an earlier one brought in stays known
  induction calls using List.reverseRecOn with
  | nil =>
      have hsound : Sound i (Brought i [] w) w.disk := by
        intro n b m hb
        rw [hempty n] at hb
        cases hb
      exact ⟨⟨hw, rfl, fun _ => hsound.mono fun _ _ => .inr⟩, hsound⟩
  | append_singleton calls call ih =>
      obtain ⟨hbefore, hsound⟩ := ih fun call hcall => hnamed call (by simp [hcall])
      have hstep := step_call (K := Brought i calls w) htransport hcache htool
        (hnamed call (by simp)) hbefore.plain
      rw [run_concat]
      have hafter : Sound i (Brought i (calls ++ [call]) w)
          (call.perform i (run i calls w)).disk := by
        refine (hstep.sound hsound).mono ?_
        intro n b hb
        rcases hb with ⟨before, call', after, rfl, hdelivers⟩ | hdelivers
        · exact ⟨before, call', after ++ [call], by simp, hdelivers⟩
        · exact ⟨calls, call, [], rfl, hdelivers⟩
      exact ⟨⟨hstep.plain, hstep.here.trans hbefore.here, fun _ => hafter.mono fun _ _ => .inr⟩,
        hafter⟩

/-- Nothing incomplete is in the cache: a file under the name of an asset is the body of a success
that a call of the run brought in for it, and no file is private. -/
structure Intact (i : Installer) (calls : List Call) (w : World) (d : Disk) : Prop where
  asset : ∀ {version target : String} {b : List UInt8} {m : Nat}, '/' ∉ version.toList →
    '/' ∉ target.toList →
    d.get? (d.locationOf (i.assetPath version target)) = some (.file b m) →
    Brought i calls w (i.assetName version target) b
  noPartial : ∀ {version target : String} {directory : Path} (n : Nat) (b : List UInt8) (m : Nat),
    '/' ∉ version.toList → '/' ∉ target.toList →
    Stream.partialDirectory d (i.assetPath version target) = .ok directory →
    d.get? (d.locationOf (Stream.partialPath directory (i.assetPath version target) n)) ≠
      some (.file b m)

/-- **A cache that was empty is intact after every run of calls.** -/
theorem run_intact (htransport : i.transport = .stream h c limit) (hcache : i.cacheDir.Readable)
    (htool : '/' ∉ i.config.toolName.toList) {w : World} (hw : w.disk.Plain)
    (hempty : ∀ n, w.disk.get? (n :: w.disk.locationOf i.cacheDir) = none) (calls : List Call)
    (hnamed : ∀ call ∈ calls, call.Named) : Intact i calls w (run i calls w).disk := by
  obtain ⟨hstep, hsound⟩ := sound_run htransport hcache htool hw hempty calls hnamed
  constructor
  -- an asset is not of the installed name, so its bytes were brought in
  · intro version target b m hversion htarget hfile
    have hname := Installer.isEntryName_assetName htool hversion htarget
    rw [Installer.assetPath, Disk.locationOf_child _ _ hname] at hfile
    exact (hsound _ b m hfile).resolve_left (i.assetName_ne_installed version target)
  -- a private file has neither the installed name nor that of an asset
  · intro version target directory n b m hversion htarget hdirectory hfile
    have hname := Installer.isEntryName_assetName htool hversion htarget
    have hparent : (i.assetPath version target).parent = i.cacheDir := Path.parent_child _ hname
    rw [Stream.locationOf_partialPath hstep.plain (hparent ▸ hcache) hdirectory, hparent,
      Installer.assetPath, Path.name_child _ hname] at hfile
    rcases hsound _ b m hfile with hinstalled | ⟨before, call, after, -, o, -, ho, -⟩
    · exact i.partialName_ne_installed version target n hinstalled
    · exact i.partialName_ne_assetName version target o.version o.target n ho.symm

end Calls

/-- A cache that is filled, cleared and filled again. -/
theorem run_intact_refilled :
    Intact (Installer.streaming ⟨.here, ["cache"]⟩)
      [.install Installer.firstOrder, .clear, .obtain Installer.firstOrder]
      (.fresh ⟨[], []⟩ Installer.firstAnswers)
      (run (Installer.streaming ⟨.here, ["cache"]⟩)
        [.install Installer.firstOrder, .clear, .obtain Installer.firstOrder]
        (.fresh ⟨[], []⟩ Installer.firstAnswers)).disk := by
  refine run_intact (i := Installer.streaming ⟨.here, ["cache"]⟩) rfl
    (by simp [Path.Readable, Installer.streaming, Installer.ofTool]) (by decide) (plain_of_isPlain rfl)
    (fun n => by simp [World.fresh, get?]) _ ?_
  intro call hcall o ho
  suffices hfirst : o = Installer.firstOrder by
    rw [hfirst]
    exact ⟨by decide, by decide⟩
  simp only [List.mem_cons, List.not_mem_nil, or_false] at hcall
  rcases hcall with rfl | rfl | rfl
  · exact (Option.some.inj ho).symm
  · cases ho
  · exact (Option.some.inj ho).symm

/-- **A cache that cannot be seen need not be empty**: its path goes up from a directory that is
missing, and once that directory is made, an old asset is in the cache. -/
theorem old_behind_missing :
    Installer.oldDisk.Plain ∧
      Installer.oldDisk.exists? ⟨.here, ["new", "..", "cache"]⟩ = .ok false ∧
      ¬Intact (Installer.streaming ⟨.here, ["new", "..", "cache"]⟩)
        [.obtain Installer.firstOrder] (.fresh Installer.oldDisk [])
        (run (Installer.streaming ⟨.here, ["new", "..", "cache"]⟩)
          [.obtain Installer.firstOrder] (.fresh Installer.oldDisk [])).disk := by
  refine ⟨plain_of_isPlain (by decide), by decide +kernel, fun hintact => ?_⟩
  have hold : (run (Installer.streaming ⟨.here, ["new", "..", "cache"]⟩)
      [.obtain Installer.firstOrder] (.fresh Installer.oldDisk [])).disk.get?
      ((run (Installer.streaming ⟨.here, ["new", "..", "cache"]⟩)
        [.obtain Installer.firstOrder] (.fresh Installer.oldDisk [])).disk.locationOf
          ((Installer.streaming ⟨.here, ["new", "..", "cache"]⟩).assetPath "v1" "t1")) =
      some (.file [0] 0o644) := by decide +kernel
  obtain ⟨before, call, after, heq, o, -, -, r, ⟨n, x, hanswer, -⟩, -⟩ :=
    hintact.asset (by decide) (by decide) hold
  -- the only call comes first, and there are no answers
  obtain rfl : before = [] := by
    cases before with
    | nil => rfl
    | cons first rest => simp at heq
  simp [World.fresh] at hanswer

end Cache

end ReleaseFetch
