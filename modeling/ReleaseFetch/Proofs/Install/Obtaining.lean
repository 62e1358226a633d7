/-
**An asset from the cache, or from its release.**

An asset is one entry of the cache directory, under a name that no installed binary and no private
file has.  Obtaining it ends in one of three ways: it was in the cache and nothing is sent, it was
found in its release and downloaded over a chain of redirects, or it fails and no new file stands
where the asset is kept.

Main definitions:

* `ReleaseFetch.Fetched` — the traffic of a search and a download that succeeded.

Main results:

* `ReleaseFetch.Installer.isEntryName_assetName`, `ReleaseFetch.Installer.assetName_ne_installed`,
  `ReleaseFetch.Installer.assetName_ne_partial` — the names of assets;
* `ReleaseFetch.Installer.obtain_cases` — what is done for an asset once its directory is there;
* `ReleaseFetch.Installer.download_spec`, `ReleaseFetch.Installer.obtain_spec` — the ways in which
  an asset is obtained.
-/

import ReleaseFetch.Install.Placement
import ReleaseFetch.Proofs.Release.Locating

set_option autoImplicit false

namespace ReleaseFetch

open Disk Session

/-- A release was asked for, and the asset that its answer names was downloaded over at most
`limit` redirects. -/
def Fetched (q : Release.Query) (limit : Int) (b : List UInt8) (w w' : World) : Prop :=
  ∃ a r hops v, Release.Found q a r w v ∧ Stream.Arrived a.url hops b v w' ∧
    (hops.length : Int) ≤ limit + 1

/-- What happens around it without traffic does not matter. -/
theorem Fetched.congr {q : Release.Query} {limit : Int} {b : List UInt8} {w w' v v' : World}
    (h : Fetched q limit b v v') (hv : v.traffic = w.traffic) (hv' : w'.traffic = v'.traffic) :
    Fetched q limit b w w' := by
  obtain ⟨a, r, hops, u, hfound, harrived, hlen⟩ := h
  have ha : v.answers = w.answers := congrArg Traffic.answers hv
  have hx : v.exchanges = w.exchanges := congrArg Traffic.exchanges hv
  refine ⟨a, r, hops, u, ⟨ha ▸ hfound.answers, hx ▸ hfound.exchanges, hfound.status,
    hfound.listing⟩, harrived.congr rfl hv', hlen⟩

namespace Installer

/-! ### Names -/

theorem assetName_toList (i : Installer) (version target : String) :
    (i.assetName version target).toList =
      i.config.toolName.toList ++ '-' :: version.toList ++ '-' :: target.toList ++
        i.host.extension.toList := by
  simp [assetName, Text.join, Text.joinWith]

theorem noSlash_extension (h : Host) : '/' ∉ h.extension.toList := by
  unfold Host.extension
  split <;> decide

variable {i : Installer}

/-- **An asset is one entry of the cache.** -/
theorem isEntryName_assetName (htool : '/' ∉ i.config.toolName.toList) {version target : String}
    (hversion : '/' ∉ version.toList) (htarget : '/' ∉ target.toList) :
    IsEntryName (i.assetName version target) := by
  have hmark : '-' ∈ (i.assetName version target).toList := by simp [assetName_toList]
  have hext := noSlash_extension i.host
  refine ⟨?_, ?_, ?_, ?_⟩
  · simp [assetName_toList, htool, hversion, htarget, hext]
  all_goals
    intro heq
    rw [heq] at hmark
    revert hmark
    decide

/-- The name of an asset is longer than what is installed. -/
theorem installedName_length_lt (i : Installer) (version target : String) :
    i.installedName.length < (i.assetName version target).length := by
  have h : (i.assetName version target).length = i.config.toolName.length + 1 + version.length + 1 +
      target.length + i.host.extension.length := by
    simp only [← String.length_toList, assetName_toList, List.length_append, List.length_cons]
    omega
  unfold installedName
  unfold Host.extension at h
  split
  · next hw =>
    rw [if_pos hw] at h
    rw [String.length_append]
    omega
  · omega

theorem assetName_ne_installed (i : Installer) (version target : String) :
    i.assetName version target ≠ i.installedName := by
  intro heq
  have h := i.installedName_length_lt version target
  rw [heq] at h
  omega

/-- The name of a private file is longer than what is installed. -/
theorem partialName_ne_installed (i : Installer) (version target : String) (n : Nat) :
    Stream.partialName (i.assetName version target) n ≠ i.installedName := by
  intro heq
  have h := i.installedName_length_lt version target
  have h' := Stream.partialName_length (i.assetName version target) n
  rw [heq] at h'
  omega

/-- A dot in front moves the first dash, whatever comes after it. -/
theorem dot_cons_ne (tool as bs : List Char) : '.' :: (tool ++ '-' :: as) ≠ tool ++ '-' :: bs := by
  induction tool with
  | nil => simp
  | cons c rest ih =>
      intro heq
      rw [List.cons_append, List.cons_append] at heq
      obtain ⟨rfl, htail⟩ := List.cons.inj heq
      exact ih htail

/-- **A private file has the name of no asset.** -/
theorem partialName_ne_assetName (i : Installer) (version target version' target' : String)
    (n : Nat) :
    Stream.partialName (i.assetName version target) n ≠ i.assetName version' target' := by
  intro heq
  have h := congrArg String.toList heq
  rw [assetName_toList] at h
  simp only [Stream.partialName, String.toList_append, assetName_toList, toString,
    List.append_assoc, List.cons_append] at h
  -- the two would start with the tool and a dash, one of them after a dot
  exact dot_cons_ne _ _ _ h

/-! ### Obtaining an asset -/

/-- A download is noted in the journal before it starts. -/
theorem perform_fetch (t : Transport) (url shownAs : String) (destination : Path) (o : Options)
    (w : World) : ∃ j, (t.fetch url shownAs destination o).perform w =
      (t.download url destination o).perform { w with journal := j } := ⟨_, rfl⟩

variable {h : Host} {c : Client} {limit : Int}

/-- **A download ends with the body of the last reply in the cache, or with no new file there.** -/
theorem download_spec (htransport : i.transport = .stream h c limit) {o : Order}
    (hdest : Stream.Destined (i.assetPath o.version o.target)) {w w' : World} (hw : w.disk.Plain)
    {out : Except Failure Unit} (hout : (i.download o).perform w = (out, w')) :
    (∃ b, out = .ok () ∧ Fetched (i.query o) limit b w w' ∧
      Edited (· = w.disk.locationOf (i.assetPath o.version o.target)) w.disk w'.disk ∧
      w'.disk.get? (w.disk.locationOf (i.assetPath o.version o.target)) =
        some (.file b privateMode)) ∨
    (∃ f, out = .error f) ∧ (Motion.spares (i.assetPath o.version o.target)).rel w w' := by
  have hstill := Release.locate_still i.client i.host (i.query o)
  unfold download at hout
  rw [perform_bind] at hout
  rcases hlocate : (Release.locate i.client i.host (i.query o)).perform w with ⟨result, v⟩
  have hdisk : v.disk = w.disk := by
    have hdisk := hstill w
    rw [hlocate] at hdisk
    exact hdisk
  cases result with
  | error f =>
      have hspares := hstill.spares (p := i.assetPath o.version o.target) w
      rw [hlocate] at hout hspares
      obtain ⟨rfl, rfl⟩ := Prod.mk.inj hout
      exact .inr ⟨⟨f, rfl⟩, hspares⟩
  | ok a =>
      have hspares := hstill.spares (p := i.assetPath o.version o.target) w
      rw [hlocate] at hout hspares
      obtain ⟨r, hfound⟩ := Release.locate_ok hlocate
      obtain ⟨j, hfetch⟩ := perform_fetch i.transport a.url
        (i.assetPath o.version o.target).text (i.assetPath o.version o.target)
        (i.assetOptions o) v
      simp only at hout
      rw [hfetch, htransport] at hout
      -- the two notes in the journal come first; they change neither the disk nor the traffic
      obtain ⟨u, hu, hfollow⟩ : ∃ u : World, (u.disk = v.disk ∧ u.traffic = v.traffic) ∧
          (Stream.follow c h (i.assetOptions o) (i.assetPath o.version o.target) a.url limit
            (limit + 1).toNat a.url).perform u = (out, w') :=
        ⟨{ v with journal := j }, ⟨rfl, rfl⟩, hout⟩
      rcases Stream.follow_spec c h (i.assetOptions o) hdest.readable (fun _ => hdest.isName) a.url
        limit _ a.url (by rw [hu.1, hdisk]; exact hw) hfollow with
        ⟨hops, b, hok, hlen, harrived, hedit, hholds⟩ | ⟨herror, hspares'⟩
      · rw [hu.1, hdisk] at hedit
        have hfile := hholds.file
        rw [hedit.locationOf] at hfile
        refine .inl ⟨b, hok, ⟨a, r, hops, v, hfound, harrived.congr hu.2 rfl, ?_⟩, hedit, hfile⟩
        obtain ⟨before, hop, heq, -⟩ := harrived.chain.exists_last
        have hpos : 0 < hops.length := by simp [heq]
        omega
      · refine .inr ⟨herror, (Motion.spares _).trans hspares fun hv => ?_⟩
        rw [← hu.1] at hv ⊢
        exact hspares' hv

/-- A download into the cache, where no failure leaves anything. -/
def renew (i : Installer) (o : Order) : Session Path := do
  match ← attempt (i.download o) with
  | .ok () => return i.assetPath o.version o.target
  | .error f =>
    log .info .cache "Deleting invalid download cache"
    let _ ← Files.discard (i.assetPath o.version o.target)
    throw f

/-- An asset that is in the cache and may be used. -/
def reuse (i : Installer) (o : Order) : Session Bool :=
  if o.force then pure false else look (·.exists? (i.assetPath o.version o.target))

/-- An asset is reused or renewed. -/
theorem obtain_eq (i : Installer) (o : Order) :
    i.obtain o = (do
      Files.ensureDirectory i.cacheDir
      if ← i.reuse o then
        log .info .cache s!"Using cached download: {(i.assetPath o.version o.target).text}"
        return i.assetPath o.version o.target
      else i.renew o) := by
  unfold obtain reuse
  cases o.force <;> rfl

/-- A renewal that succeeds is a download that does. -/
theorem renew_ok {o : Order} {a : Path} {w w' : World}
    (hok : (i.renew o).perform w = (.ok a, w')) :
    a = i.assetPath o.version o.target ∧ (i.download o).perform w = (.ok (), w') := by
  obtain ⟨result, v, hattempt, hrest⟩ := bind_ok hok
  have hdownload := attempt_ok hattempt
  cases result with
  | ok _ =>
      obtain ⟨heq, rfl⟩ := Prod.mk.inj hrest
      exact ⟨(Except.ok.inj heq).symm, hdownload⟩
  | error f =>
      obtain ⟨_, u, -, hrest⟩ := bind_ok hrest
      obtain ⟨_, u', -, hthrow⟩ := bind_ok hrest
      cases hthrow

section Ensured

variable {o : Order} {w v : World}

/-- Unless an asset must be fresh, the cache is looked at. -/
theorem perform_reuse (hforce : o.force = false) (w : World) :
    (i.reuse o).perform w = (w.disk.exists? (i.assetPath o.version o.target), w) := by
  rw [reuse, hforce]
  simp only [Bool.false_eq_true, if_false, perform_look]

/-- Where the cache is there, an asset is reused or renewed. -/
theorem obtain_of_ensure (hensure : (Files.ensureDirectory i.cacheDir).perform w = (.ok (), v)) :
    (i.obtain o).perform w = (do
      if ← i.reuse o then
        log .info .cache s!"Using cached download: {(i.assetPath o.version o.target).text}"
        return i.assetPath o.version o.target
      else i.renew o : Session Path).perform v := by
  rw [obtain_eq, perform_bind, hensure]

/-- An asset that is not in the cache, or must be fresh, is renewed. -/
theorem obtain_of_absent (hensure : (Files.ensureDirectory i.cacheDir).perform w = (.ok (), v))
    (habsent : o.force = true ∨ v.disk.exists? (i.assetPath o.version o.target) = .ok false) :
    (i.obtain o).perform w = (i.renew o).perform v := by
  rw [obtain_of_ensure hensure, perform_bind]
  cases hforce : o.force with
  | true => simp only [reuse, hforce, if_true, perform_pure, Bool.false_eq_true, if_false]
  | false =>
      have hexists := habsent.resolve_left (by simp [hforce])
      simp only [perform_reuse hforce, hexists, Bool.false_eq_true, if_false]

/-- An asset that is in the cache is taken from it. -/
theorem obtain_of_cached (hensure : (Files.ensureDirectory i.cacheDir).perform w = (.ok (), v))
    (hforce : o.force = false)
    (hexists : v.disk.exists? (i.assetPath o.version o.target) = .ok true) :
    ∃ j, (i.obtain o).perform w =
      (.ok (i.assetPath o.version o.target), { v with journal := j }) := by
  rw [obtain_of_ensure hensure, perform_bind, perform_reuse hforce, hexists]
  exact ⟨_, rfl⟩

/-- **Where the cache is there, an asset is renewed, or taken from it, or it cannot be told whether
it is in it**; only a renewal does more than note something in the journal. -/
theorem obtain_cases (hensure : (Files.ensureDirectory i.cacheDir).perform w = (.ok (), v)) :
    ((o.force = true ∨ v.disk.exists? (i.assetPath o.version o.target) = .ok false) ∧
      (i.obtain o).perform w = (i.renew o).perform v) ∨
    (o.force = false ∧ ∃ j, (i.obtain o).perform w =
      (.ok (i.assetPath o.version o.target), { v with journal := j })) ∨
    (o.force = false ∧ ∃ f, v.disk.exists? (i.assetPath o.version o.target) = .error f ∧
      (i.obtain o).perform w = (.error f, v)) := by
  cases hforce : o.force with
  | true => exact .inl ⟨.inl rfl, obtain_of_absent hensure (.inl hforce)⟩
  | false =>
      rcases hseen : v.disk.exists? (i.assetPath o.version o.target) with f | found
      · refine .inr (.inr ⟨rfl, f, rfl, ?_⟩)
        rw [obtain_of_ensure hensure, perform_bind, perform_reuse hforce, hseen]
      · cases found with
        | true => exact .inr (.inl ⟨rfl, obtain_of_cached hensure hforce hseen⟩)
        | false => exact .inl ⟨.inr rfl, obtain_of_absent hensure (.inr hseen)⟩

end Ensured

/-- **A download into the cache leaves the asset there, or no new file.** -/
theorem renew_spec (htransport : i.transport = .stream h c limit) {o : Order}
    (hdest : Stream.Destined (i.assetPath o.version o.target)) {w w' : World} (hw : w.disk.Plain)
    {out : Except Failure Path} (hout : (i.renew o).perform w = (out, w')) :
    (∃ b, out = .ok (i.assetPath o.version o.target) ∧ Fetched (i.query o) limit b w w' ∧
      Edited (· = w.disk.locationOf (i.assetPath o.version o.target)) w.disk w'.disk ∧
      w'.disk.get? (w.disk.locationOf (i.assetPath o.version o.target)) =
        some (.file b privateMode)) ∨
    (∃ f, out = .error f) ∧ (Motion.spares (i.assetPath o.version o.target)).rel w w' := by
  unfold renew at hout
  rw [perform_bind, perform_attempt] at hout
  rcases hdownload : (i.download o).perform w with ⟨result, v⟩
  rw [hdownload] at hout
  rcases download_spec htransport hdest hw hdownload with ⟨b, rfl, hfetched, hedit, hfile⟩ |
    ⟨⟨f, rfl⟩, hspares⟩
  · obtain ⟨rfl, rfl⟩ := Prod.mk.inj hout
    exact .inl ⟨b, rfl, hfetched, hedit, hfile⟩
  · have hdiscard := Files.discard_spares (i.assetPath o.version o.target)
      { v with journal := v.journal ++ [⟨.info, .cache, "Deleting invalid download cache", false⟩] }
    have hall := (Motion.spares _).trans ((Motion.spares _).trans hspares
      ((Motion.spares (i.assetPath o.version o.target)).journal v _)) hdiscard
    simp only at hout
    rw [perform_bind, perform_log] at hout
    simp only at hout
    rw [perform_bind] at hout
    rcases hgone : (Files.discard (i.assetPath o.version o.target)).perform _ with ⟨gone, u⟩
    rw [hgone] at hout hall
    cases gone <;>
      · obtain ⟨rfl, rfl⟩ := Prod.mk.inj hout
        exact .inr ⟨⟨_, rfl⟩, hall⟩

/-- The ways in which an asset is obtained: from the cache, from its release, or not at all. -/
inductive Obtained (i : Installer) (o : Order) (limit : Int) (w : World) :
    Except Failure Path → World → Prop where
  | cached {w' : World} (notForced : o.force = false) (traffic : w'.traffic = w.traffic)
      (edited : Edited (fun _ => False) w.disk w'.disk) :
      Obtained i o limit w (.ok (i.assetPath o.version o.target)) w'
  | fetched {w' : World} {b : List UInt8}
      (asked : o.force = true ∨ ('\x00' ∉ (i.assetName o.version o.target).toList →
        w.disk.get? (w.disk.locationOf (i.assetPath o.version o.target)) = none))
      (fetched : Fetched (i.query o) limit b w w')
      (edited : Edited (· = w.disk.locationOf (i.assetPath o.version o.target)) w.disk w'.disk)
      (file : w'.disk.get? (w.disk.locationOf (i.assetPath o.version o.target)) =
        some (.file b privateMode)) :
      Obtained i o limit w (.ok (i.assetPath o.version o.target)) w'
  | failed {w' : World} {f : Failure}
      (spared : (Motion.spares (i.assetPath o.version o.target)).rel w w') :
      Obtained i o limit w (.error f) w'

/-- **An asset is obtained in one of these ways.** -/
theorem obtain_spec (htransport : i.transport = .stream h c limit)
    (hcache : i.cacheDir.Readable) {o : Order}
    (hname : IsEntryName (i.assetName o.version o.target)) {w w' : World} (hw : w.disk.Plain)
    {out : Except Failure Path} (hout : (i.obtain o).perform w = (out, w')) :
    Obtained i o limit w out w' := by
  have hmade := Files.ensureDirectory_edited i.cacheDir hw
  have htraffic := (Files.ensureDirectory_local i.cacheDir).traffic w
  rcases hensure : (Files.ensureDirectory i.cacheDir).perform w with ⟨result, v⟩
  rw [hensure] at hmade htraffic
  have hspared : (Motion.spares (i.assetPath o.version o.target)).rel w v := fun _ =>
    ⟨hmade.mono fun _ => False.elim, fun b m => (hmade.file_iff id b m).1⟩
  cases result with
  | error f =>
      rw [obtain_eq, perform_bind, hensure] at hout
      obtain ⟨rfl, rfl⟩ := Prod.mk.inj hout
      exact .failed hspared
  | ok u =>
      rcases obtain_cases (o := o) hensure with ⟨habsent, hrenew⟩ | ⟨hforce, j, hreuse⟩ |
        ⟨-, f, -, hrefuse⟩
      · rw [hrenew] at hout
        -- the directory is there by now, so what is not said to be in it is not in it
        have hasked : o.force = true ∨ ('\x00' ∉ (i.assetName o.version o.target).toList →
            w.disk.get? (w.disk.locationOf (i.assetPath o.version o.target)) = none) := by
          refine habsent.imp_right fun hexists hnul => ?_
          have hstands := Files.stands_of_ensureDirectory hw hensure
          have hnone := hstands.vacant_child hmade.plain hname hnul hexists
          rw [← v.disk.locationOf_child i.cacheDir hname, hmade.locationOf] at hnone
          exact hmade.none_of_none id hnone
        -- what a download leaves counts from before the directory was made
        rcases renew_spec htransport (Stream.destined_child hcache hname) hmade.plain hout with
          ⟨b, rfl, hfetched, hedit, hfile⟩ | ⟨⟨f, rfl⟩, hspares⟩
        · rw [hmade.locationOf] at hedit hfile
          exact .fetched hasked (hfetched.congr htraffic rfl)
            ((hmade.mono fun _ => False.elim).trans hedit) hfile
        · exact .failed ((Motion.spares _).trans hspared hspares)
      · rw [hreuse] at hout
        obtain ⟨rfl, rfl⟩ := Prod.mk.inj hout
        exact .cached hforce htraffic hmade
      · rw [hrefuse] at hout
        obtain ⟨rfl, rfl⟩ := Prod.mk.inj hout
        exact .failed hspared

/-! ### One installer -/

/-- An installer of a tool off Windows, with its cache in a directory. -/
def ofTool (cacheDir : Path) : Installer where
  config := ⟨"tool", "owner/tool", "v1", defaultTrustedHost, "tool", ⟨.here, ["bin"]⟩, none, 5, none⟩
  host := ⟨"linux", "x86_64", []⟩
  client := .own
  transport? := none
  cacheDir := cacheDir

/-- The same, with its way to download named. -/
def streaming (cacheDir : Path) : Installer :=
  { ofTool cacheDir with transport? := some (.stream ⟨"linux", "x86_64", []⟩ .own 5) }

/-- An order for the first version of the tool. -/
def firstOrder : Order := ⟨"v1", "t1", ⟨.here, ["out"]⟩, false, none⟩

/-- The answers to an order: the description of a release, a redirect, and a body in two parts. -/
def firstAnswers : List Answer :=
  [.reply ⟨200, [], "\x7b\"assets\": [\x7b\"name\": \"tool-v1-t1\", \"url\": \"https://a.org/x\"\x7d]\x7d",
      []⟩,
    .reply ⟨302, [("Location", "/y")], "", []⟩, .reply ⟨200, [], "", [.bytes [1], .bytes [2]]⟩]

/-- A disk with an old asset in the cache. -/
def oldDisk : Disk :=
  ⟨[(["cache"], .directory), (["tool-v1-t1", "cache"], .file [0] 0o644)], []⟩

end Installer

/-- A world with a disk and answers, before anything was done. -/
def World.fresh (d : Disk) (answers : List Answer) : World := ⟨d, answers, [], [], [], [], ""⟩

end ReleaseFetch
