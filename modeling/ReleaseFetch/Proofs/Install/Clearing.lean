/-
**A failure leaves nothing in the cache.**

However an asset is lost — its release cannot be read, its download breaks off, its copy cannot be
written — nothing stands where it is kept, neither a file nor a link, so the next installation asks
for its release again.  What is said is what went wrong, whatever becomes of the removal.  Links may
stand anywhere, and a command may leave what it likes, but for a directory where the asset is kept,
which cannot be removed.  Nothing is removed either when the cache itself cannot be looked at: a
link whose target the system does not take stays where it is.

Main definitions:

* `ReleaseFetch.Installer.Clearable` — a cache from which a lost asset can be removed;
* `ReleaseFetch.Installer.Ready` — what makes it so before any directory is made.

Main results:

* `ReleaseFetch.Installer.obtain_vacant`, `ReleaseFetch.Installer.install_vacant` — where a failure
  leaves nothing;
* `ReleaseFetch.Installer.obtain_of_download` — what a failed download says is passed on;
* `ReleaseFetch.Installer.install_renews` — an installation that finds nothing asks for the release;
* `ReleaseFetch.Installer.Ready.clearable`, `ReleaseFetch.Installer.Ready.install_anew` — the same
  from what can be said beforehand;
* `ReleaseFetch.Installer.failure_clears_asset` — all of this;
* `ReleaseFetch.Installer.failure_leaves_asset` — a link and a directory that stay.
-/

import ReleaseFetch.Proofs.Install.Repeat
import ReleaseFetch.Proofs.Session.Steady
import ReleaseFetch.Proofs.Transfer.Leftover

set_option autoImplicit false

namespace ReleaseFetch

open Disk Session

namespace Installer

variable {i : Installer} {o : Order} {w w' v u : World} {f : Failure}

/-! ### An asset that is lost -/

/-- A cache from which a lost asset can be removed: there is no directory where the asset is kept,
no command makes one, and, unless a fresh asset is asked for, the system takes the target of a link
that is there. -/
structure Clearable (i : Installer) (o : Order) (v : World) : Prop where
  before : ¬v.disk.HasDirectory (i.assetPath o.version o.target)
  after : ¬(i.transport.afterCommand v).HasDirectory (i.assetPath o.version o.target)
  seen : o.force = false → ∀ m t,
    v.disk.find false (i.assetPath o.version o.target) = .ok ⟨m, some (.link t)⟩ →
      ∀ g, v.disk.exists? (i.assetPath o.version o.target) ≠ .error g

theorem parent_assetPath {version target : String} (hname : IsEntryName (i.assetName version target)) :
    (i.assetPath version target).parent = i.cacheDir := Path.parent_child _ hname

theorem assetPath_name_ne_dot {version target : String}
    (hname : IsEntryName (i.assetName version target)) : (i.assetPath version target).name ≠ "." := by
  rw [assetPath, Path.name_child _ hname]
  exact hname.ne_dot

/-- An asset of a cache that is there has a path that the system can be given. -/
theorem hasNul_assetPath {version target : String} (hname : IsEntryName (i.assetName version target))
    (hnul : '\x00' ∉ (i.assetName version target).toList)
    (hdir : v.disk.isDirectory? i.cacheDir = .ok true) :
    hasNul (i.assetPath version target) = false := by
  obtain ⟨m, hm⟩ := isDirectory?_iff.1 hdir
  have hcache := noNul_of_found hm
  rw [assetPath, Path.child_eq _ hname]
  unfold hasNul at *
  rw [List.any_append, Bool.or_eq_false_iff]
  exact ⟨hcache, by simpa using hnul⟩

/-- A download brings no directory to where the asset is kept. -/
theorem Clearable.download (h : i.Clearable o v)
    (hname : IsEntryName (i.assetName o.version o.target))
    (hdir : v.disk.isDirectory? i.cacheDir = .ok true) :
    ¬((i.download o).perform v).2.disk.HasDirectory (i.assetPath o.version o.target) := by
  rw [← parent_assetPath (i := i) hname] at hdir
  rcases download_confined (assetPath_name_ne_dot hname) hdir with hroutes | hroutes
  · exact fun hthere => h.before (hroutes.hasDirectory hthere)
  · exact fun hthere => h.after (hroutes.hasDirectory hthere)

/-- What a failed download says is passed on, after the asset is discarded. -/
theorem renew_of_download (hnul : hasNul (i.assetPath o.version o.target) = false)
    (hfail : (i.download o).perform v = (.error f, u)) :
    ∃ j, (i.renew o).perform v = (.error f,
      ((Files.discard (i.assetPath o.version o.target)).perform { u with journal := j }).2) := by
  refine ⟨u.journal ++ [⟨.info, .cache, "Deleting invalid download cache", false⟩], ?_⟩
  obtain ⟨b, hb⟩ := Files.discard_ok (w := { u with
    journal := u.journal ++ [⟨.info, .cache, "Deleting invalid download cache", false⟩] }) hnul
  rw [renew, perform_bind, perform_attempt, hfail]
  simp only
  rw [perform_bind, perform_log]
  simp only
  rw [perform_bind]
  rcases hdiscard : (Files.discard (i.assetPath o.version o.target)).perform { u with
    journal := u.journal ++ [⟨.info, .cache, "Deleting invalid download cache", false⟩] } with
    ⟨result, u'⟩
  rw [hdiscard] at hb
  obtain rfl : result = .ok b := hb
  rfl

/-- A renewal fails as its download does. -/
theorem renew_error (hfail : (i.renew o).perform v = (.error f, w'))
    (hnul : hasNul (i.assetPath o.version o.target) = false) :
    ∃ u j, (i.download o).perform v = (.error f, u) ∧
      w' = ((Files.discard (i.assetPath o.version o.target)).perform { u with journal := j }).2 := by
  rcases hdownload : (i.download o).perform v with ⟨result, u⟩
  cases result with
  | ok _ =>
      rw [renew, perform_bind, perform_attempt, hdownload] at hfail
      cases hfail
  | error g =>
      obtain ⟨j, hrenew⟩ := renew_of_download hnul hdownload
      rw [hrenew] at hfail
      obtain ⟨heq, rfl⟩ := Prod.mk.inj hfail
      obtain rfl := Except.error.inj heq
      exact ⟨u, j, rfl, rfl⟩

/-- **An asset that cannot be obtained leaves nothing.** -/
theorem obtain_vacant (hname : IsEntryName (i.assetName o.version o.target))
    (hnul : '\x00' ∉ (i.assetName o.version o.target).toList)
    (hclear : ∀ v, (Files.ensureDirectory i.cacheDir).perform w = (.ok (), v) → i.Clearable o v)
    (hfail : (i.obtain o).perform w = (.error f, w')) :
    w'.disk.Vacant (i.assetPath o.version o.target) := by
  rcases hensure : (Files.ensureDirectory i.cacheDir).perform w with ⟨result, v⟩
  cases result with
  | error g =>
      -- the cache is not there, so nothing is in it
      rw [obtain_eq, perform_bind, hensure] at hfail
      obtain ⟨-, rfl⟩ := Prod.mk.inj hfail
      exact vacant_child hname (Files.not_isDirectory?_of_ensureDirectory hensure)
  | ok _ =>
      have hclear := hclear v hensure
      have hdir := Files.isDirectory?_of_ensureDirectory hensure
      rcases obtain_cases (o := o) hensure with ⟨-, hrenew⟩ | ⟨-, j, hreuse⟩ |
        ⟨hforce, g, hseen, hrefuse⟩
      · -- the download failed
        rw [hrenew] at hfail
        have hnulPath := hasNul_assetPath hname hnul hdir
        obtain ⟨u, j, hdownload, hw'⟩ := renew_error hfail hnulPath
        have hno := hclear.download hname hdir
        rw [hdownload] at hno
        rw [hw']
        exact Files.discard_vacant hno
      · rw [hreuse] at hfail
        cases hfail
      · -- the cache was looked at, which failed
        rw [hrefuse] at hfail
        obtain ⟨-, rfl⟩ := Prod.mk.inj hfail
        exact vacant_of_exists? hseen fun m t hlink => hclear.seen hforce m t hlink g hseen

/-- **What a failed download says is passed on.** -/
theorem obtain_of_download (hname : IsEntryName (i.assetName o.version o.target))
    (hnul : '\x00' ∉ (i.assetName o.version o.target).toList)
    (hensure : (Files.ensureDirectory i.cacheDir).perform w = (.ok (), v))
    (habsent : o.force = true ∨ v.disk.exists? (i.assetPath o.version o.target) = .ok false)
    (hfail : (i.download o).perform v = (.error f, u)) : ((i.obtain o).perform w).1 = .error f := by
  have hdir := Files.isDirectory?_of_ensureDirectory hensure
  obtain ⟨j, hrenew⟩ := renew_of_download (hasNul_assetPath hname hnul hdir) hfail
  rw [obtain_of_absent hensure habsent, hrenew]

/-! ### A copy that fails -/

/-- No interrupt ends the placing of an asset. -/
theorem place_steady (asset directory : Path) : (i.place asset directory).Steady := by
  refine .bind (.bind (Files.copyExecutable_steady _ _) fun _ =>
    .bind (Files.findBinary_steady _ _) fun binary => ?_) fun binary => ?_
  · cases binary with
    | none => exact .fail _
    | some p => exact .pure _
  · cases i.host.isWindows with
    | true => exact .pure _
    | false => exact .bind (Files.makeExecutable_steady binary) fun _ => .pure _

/-- Placing an asset brings in no directory where its destination, and the one above it, were. -/
theorem place_narrows (htool : '/' ∉ i.config.toolName.toList) {asset directory : Path}
    (hdir : Aftermath asset w.disk directory) (habove : Aftermath asset w.disk directory.parent) :
    ((i.place asset directory).perform w).2.disk.RoutesIn w.disk := by
  have hparent : Aftermath asset w.disk (directory.child i.installedName).parent := by
    rcases directory.parent_child_cases (noSlash_installedName htool) with heq | heq
    · rw [heq]
      exact hdir
    · rw [heq]
      exact habove
  obtain ⟨g, hmake, hg⟩ := hparent.barred
  have hensure : Motion.narrows.rel w
      ((Files.ensureDirectory (directory.child i.installedName).parent).perform w).2 := by
    rw [Files.ensureDirectory_of_error hmake hg]
    exact Motion.narrows.refl w
  have hcopy : Motion.narrows.rel w
      ((Files.copyExecutable asset (directory.child i.installedName)).perform w).2 :=
    Moves.bind_at hensure fun _ => Files.copyFile_narrows _ _
  have hextract : Motion.narrows.rel w ((i.extract asset directory).perform w).2 := by
    refine Moves.bind_at hcopy fun _ => .bind ?_ fun binary => ?_
    · intro v
      rw [Files.findBinary_eq, perform_look]
      exact Motion.narrows.refl v
    · cases binary with
      | none => exact .fail _
      | some p => exact .pure _
  refine Moves.bind_at hextract fun binary => ?_
  cases i.host.isWindows with
  | true => exact .pure _
  | false => exact .bind (Files.makeExecutable_narrows binary) fun _ => .pure _

/-- **An asset that cannot be placed leaves nothing.** -/
theorem finish_vacant (htool : '/' ∉ i.config.toolName.toList)
    (hdir : Aftermath (i.assetPath o.version o.target) w.disk o.destination)
    (habove : Aftermath (i.assetPath o.version o.target) w.disk o.destination.parent)
    (hno : ¬w.disk.HasDirectory (i.assetPath o.version o.target))
    (hfail : (i.finish o (i.assetPath o.version o.target)).perform w = (.error f, w')) :
    w'.disk.Vacant (i.assetPath o.version o.target) := by
  unfold finish at hfail
  rw [perform_bind, perform_log] at hfail
  simp only at hfail
  rw [perform_bind, perform_attempt] at hfail
  simp only at hfail
  generalize hv : ({ w with journal := _ } : World) = v at hfail
  have hdisk : v.disk = w.disk := by rw [← hv]
  rw [← hdisk] at hdir habove hno
  have hnarrow := place_narrows htool hdir habove
  have hnever :=
    (place_steady (i := i) (i.assetPath o.version o.target) o.destination).uninterrupted v
  rcases hplace : (i.place (i.assetPath o.version o.target) o.destination).perform v with
    ⟨result, u⟩
  rw [hplace] at hfail hnarrow hnever
  cases result with
  | ok p =>
      simp only at hfail
      rw [perform_bind, perform_log] at hfail
      cases hfail
  | error g =>
      have hno' : ¬u.disk.HasDirectory (i.assetPath o.version o.target) := fun hthere =>
        hno (RoutesIn.hasDirectory hnarrow hthere)
      simp only [hnever g rfl, Bool.not_false, if_true] at hfail
      rw [perform_bind, perform_log] at hfail
      simp only at hfail
      rw [perform_bind] at hfail
      have hvacant := Files.discard_vacant (p := i.assetPath o.version o.target) (w := { u with
        journal := u.journal ++ [⟨.info, .installer, "Deleting invalid download", false⟩] }) hno'
      unfold invalidate at hfail
      rcases hdiscard : (Files.discard (i.assetPath o.version o.target)).perform { u with
        journal := u.journal ++ [⟨.info, .installer, "Deleting invalid download", false⟩] } with
        ⟨gone, u'⟩
      rw [hdiscard] at hfail hvacant
      cases gone <;>
      · obtain ⟨-, rfl⟩ := Prod.mk.inj hfail
        exact hvacant

/-! ### A whole installation -/

/-- Once the destination is there, an asset is obtained and placed. -/
theorem install_of_ensure (hcheck : o.check = .ok ())
    (hensure : (Files.ensureDirectory o.destination).perform w = (.ok (), v)) :
    (i.install o).perform w = (i.obtain o >>= i.finish o).perform v := by
  rw [install_eq, perform_bind, perform_give, hcheck]
  change (Files.ensureDirectory o.destination >>= _).perform w = _
  rw [perform_bind, hensure]

/-- An asset that was obtained is no directory. -/
theorem obtain_no_directory (hname : IsEntryName (i.assetName o.version o.target))
    (hclear : ∀ v, (Files.ensureDirectory i.cacheDir).perform w = (.ok (), v) → i.Clearable o v)
    {a : Path} (hok : (i.obtain o).perform w = (.ok a, w')) :
    ¬w'.disk.HasDirectory (i.assetPath o.version o.target) := by
  rcases hensure : (Files.ensureDirectory i.cacheDir).perform w with ⟨result, v⟩
  cases result with
  | error g =>
      rw [obtain_eq, perform_bind, hensure] at hok
      cases hok
  | ok _ =>
      have hclear := hclear v hensure
      rcases obtain_cases (o := o) hensure with ⟨-, hrenew⟩ | ⟨-, j, hreuse⟩ |
        ⟨-, g, -, hrefuse⟩
      · have hno := hclear.download hname (Files.isDirectory?_of_ensureDirectory hensure)
        rw [hrenew] at hok
        rwa [(renew_ok hok).2] at hno
      · -- the asset was in the cache
        rw [hreuse] at hok
        obtain ⟨-, rfl⟩ := Prod.mk.inj hok
        exact hclear.before
      · rw [hrefuse] at hok
        cases hok

/-- **An installation that fails leaves nothing**, once its destination is there. -/
theorem install_vacant (htool : '/' ∉ i.config.toolName.toList)
    (hname : IsEntryName (i.assetName o.version o.target))
    (hnul : '\x00' ∉ (i.assetName o.version o.target).toList) (hcheck : o.check = .ok ())
    (hensure : (Files.ensureDirectory o.destination).perform w = (.ok (), v))
    (hclear : ∀ u, (Files.ensureDirectory i.cacheDir).perform v = (.ok (), u) → i.Clearable o u)
    (hfail : (i.install o).perform w = (.error f, w')) :
    w'.disk.Vacant (i.assetPath o.version o.target) := by
  rw [install_of_ensure hcheck hensure, perform_bind] at hfail
  rcases hobtain : (i.obtain o).perform v with ⟨result, u⟩
  rw [hobtain] at hfail
  cases result with
  | error g =>
      obtain ⟨-, rfl⟩ := Prod.mk.inj hfail
      exact obtain_vacant hname hnul hclear hobtain
  | ok a =>
      obtain ⟨ha, hafter⟩ := obtain_ok hobtain
      rw [ha] at hfail
      have hdir := Files.isDirectory?_of_ensureDirectory hensure
      exact finish_vacant htool (hafter (assetPath_name_ne_dot hname) _ hdir)
        (hafter (assetPath_name_ne_dot hname) _ (isDirectory?_parent hdir))
        (obtain_no_directory hname hclear hobtain) hfail

/-- **Where nothing is in the cache, an installation asks for the release.** -/
theorem install_renews (hname : IsEntryName (i.assetName o.version o.target))
    (hnul : '\x00' ∉ (i.assetName o.version o.target).toList) (hcheck : o.check = .ok ())
    (hvacant : w.disk.Vacant (i.assetPath o.version o.target))
    (hcache : w.disk.isDirectory? i.cacheDir = .ok true)
    (hstart : i.cacheDir.names = [] → w.disk.get? (w.disk.start i.cacheDir) = some .directory)
    (hensure : (Files.ensureDirectory o.destination).perform w = (.ok (), v))
    (hno : ¬v.disk.HasDirectory (i.assetPath o.version o.target))
    (hseen : ∀ g, v.disk.exists? (i.assetPath o.version o.target) ≠ .error g) :
    (i.install o).perform w = (i.renew o >>= i.finish o).perform v := by
  have hgrown := Files.ensureDirectory_grows o.destination w
  rw [hensure] at hgrown
  have hvacant' := hvacant.grown hname hnul hgrown hcache hstart hno
  have hcache' : v.disk.isDirectory? i.cacheDir = .ok true := hgrown.routesIn.isDirectory? hcache
  have habsent : v.disk.exists? (i.assetPath o.version o.target) = .ok false := by
    rcases hexists : v.disk.exists? (i.assetPath o.version o.target) with g | found
    · exact absurd hexists (hseen g)
    · cases found with
      | true => exact absurd hexists hvacant'.exists?
      | false => rfl
  rw [install_of_ensure hcheck hensure, perform_bind, perform_bind,
    obtain_of_absent (Files.ensureDirectory_there hcache') (.inr habsent)]

/-! ### What can be said beforehand -/

/-- A world in which a lost asset can be removed, whatever directories are made first: the cache
does not lie in a directory that is named as the asset, what it keeps under that name is a file, and
the next command writes there, if anywhere. -/
structure Ready (i : Installer) (o : Order) (w : World) : Prop where
  named : i.assetName o.version o.target ∉ i.cacheDir.names
  kept : w.disk.KeepsFiles i.cacheDir (i.assetName o.version o.target)
  writes : ∀ reply ∈ w.shellReplies.head?, ∀ x ∈ reply.writes,
    x.WritesTo (i.assetPath o.version o.target)

/-- A directory can be made, unless it is named as the asset. -/
theorem Ready.made (h : i.Ready o w) {p : Path}
    (hp : i.assetName o.version o.target ∉ p.names)
    (hensure : (Files.ensureDirectory p).perform w = (.ok (), v)) : i.Ready o v := by
  obtain rfl : ((Files.ensureDirectory p).perform w).2 = v := by rw [hensure]
  refine ⟨h.named, Files.ensureDirectory_keepsFiles h.kept hp, ?_⟩
  have hreplies : ((Files.ensureDirectory p).perform w).2.shellReplies = w.shellReplies := by
    rw [Files.ensureDirectory_ofDisk p w w rfl]
  rw [hreplies]
  exact h.writes

/-- **A lost asset can be removed** from a cache that is made. -/
theorem Ready.clearable (h : i.Ready o w) (hname : IsEntryName (i.assetName o.version o.target))
    (hensure : (Files.ensureDirectory i.cacheDir).perform w = (.ok (), v)) :
    i.Clearable o v := by
  have hready := h.made h.named hensure
  have hno : ¬v.disk.HasDirectory (i.assetPath o.version o.target) :=
    hready.kept.noDirectory hname
  refine ⟨hno, ?_, fun _ m t hlink => absurd hlink (hready.kept.noLink hname)⟩
  have hparent : v.disk.isDirectory? (i.assetPath o.version o.target).parent = .ok true := by
    rw [parent_assetPath hname]
    exact Files.isDirectory?_of_ensureDirectory hensure
  generalize i.transport = t
  cases t with
  | stream => exact hno
  | shell => exact afterCommand_noDirectory hparent hno hready.writes

/-- **Where nothing is in a cache that is there, the asset will be looked for in vain**, whatever
directory is made first that is not named as the asset. -/
theorem absent_of_vacant (hname : IsEntryName (i.assetName o.version o.target))
    (hnul : '\x00' ∉ (i.assetName o.version o.target).toList)
    (hfits : Fits (i.assetPath o.version o.target))
    (hvacant : w.disk.Vacant (i.assetPath o.version o.target))
    (hcache : w.disk.isDirectory? i.cacheDir = .ok true)
    (hstart : i.cacheDir.names = [] → w.disk.get? (w.disk.start i.cacheDir) = some .directory)
    {p : Path} (hp : i.assetName o.version o.target ∉ p.names)
    (hensure : (Files.ensureDirectory p).perform w = (.ok (), v)) :
    ¬v.disk.HasDirectory (i.assetPath o.version o.target) ∧
      v.disk.exists? (i.assetPath o.version o.target) = .ok false := by
  have hgrown := Files.ensureDirectory_grows p w
  have hsame := Files.get?_ensureDirectory (w := w) hp
  rw [hensure] at hgrown hsame
  obtain ⟨m, hfind⟩ := hvacant.unnamed hname hnul hfits hgrown hsame hcache hstart
  constructor
  · rintro ⟨l, hl⟩
    cases hfind.symm.trans hl
  · rcases v.disk.find_false (i.assetPath o.version o.target) with ⟨l, t, hlink⟩ | heq
    · cases hfind.symm.trans hlink
    · exact exists?_of_absent (heq.symm.trans hfind)

/-- **What fails is done anew.**  An installation that fails where a lost asset can be removed
leaves nothing in the cache, and the next one for the same asset asks for the release, wherever it
is to be installed. -/
theorem Ready.install_anew (h : i.Ready o w) (htool : IsPart i.config.toolName)
    (hversion : IsPart o.version) (htarget : IsPart o.target)
    (hfits : Fits (i.assetPath o.version o.target)) (hcheck : o.check = .ok ())
    (hdestination : i.assetName o.version o.target ∉ o.destination.names)
    (hensure : (Files.ensureDirectory o.destination).perform w = (.ok (), v))
    (hfail : (i.install o).perform w = (.error f, w'))
    (hcache : w'.disk.isDirectory? i.cacheDir = .ok true)
    (hstart : i.cacheDir.names = [] → w'.disk.get? (w'.disk.start i.cacheDir) = some .directory)
    {next : Order} (hnext : next.version = o.version ∧ next.target = o.target)
    (hcheck' : next.check = .ok ())
    (hdestination' : i.assetName o.version o.target ∉ next.destination.names)
    (hensure' : (Files.ensureDirectory next.destination).perform w' = (.ok (), u)) :
    w'.disk.Vacant (i.assetPath o.version o.target) ∧
      (i.install next).perform w' = (i.renew next >>= i.finish next).perform u := by
  have hname := isEntryName_assetName htool.noSlash hversion.noSlash htarget.noSlash
  have hnul := noNul_assetName htool hversion htarget
  have hclear := fun u hu => (h.made hdestination hensure).clearable hname (v := u) hu
  have hvacant := install_vacant htool.noSlash hname hnul hcheck hensure hclear hfail
  obtain ⟨hno, habsent⟩ :=
    absent_of_vacant hname hnul hfits hvacant hcache hstart hdestination' hensure'
  refine ⟨hvacant, ?_⟩
  rw [← hnext.1, ← hnext.2] at hname hnul hvacant hno habsent
  refine install_renews hname hnul hcheck' hvacant hcache hstart hensure' hno fun g herror => ?_
  cases habsent.symm.trans herror

/-- **A failure clears the asset.**  However an asset cannot be obtained, nothing is left where it
is kept; what a failed search or download says is passed on as it is; and an installation that fails
once its destination is there leaves nothing there either, so that the next one asks for the release
again. -/
theorem failure_clears_asset (htool : IsPart i.config.toolName) (hversion : IsPart o.version)
    (htarget : IsPart o.target) :
    (∀ w w' f,
      (∀ v, (Files.ensureDirectory i.cacheDir).perform w = (.ok (), v) → i.Clearable o v) →
      (i.obtain o).perform w = (.error f, w') →
        w'.disk.Vacant (i.assetPath o.version o.target)) ∧
    (∀ w v u f, (Files.ensureDirectory i.cacheDir).perform w = (.ok (), v) →
      (o.force = true ∨ v.disk.exists? (i.assetPath o.version o.target) = .ok false) →
      (i.download o).perform v = (.error f, u) → ((i.obtain o).perform w).1 = .error f) ∧
    (∀ w v w' f, o.check = .ok () →
      (Files.ensureDirectory o.destination).perform w = (.ok (), v) →
      (∀ u, (Files.ensureDirectory i.cacheDir).perform v = (.ok (), u) → i.Clearable o u) →
      (i.install o).perform w = (.error f, w') →
        w'.disk.Vacant (i.assetPath o.version o.target) ∧
        ∀ (destination : Path) (token : Option String) (next : Order),
          next = { o with destination := destination, force := false, token := token } →
          ∀ u u' : World, u.disk = w'.disk → u.disk.isDirectory? i.cacheDir = .ok true →
            (i.cacheDir.names = [] → u.disk.get? (u.disk.start i.cacheDir) = some .directory) →
            (Files.ensureDirectory destination).perform u = (.ok (), u') →
            ¬u'.disk.HasDirectory (i.assetPath o.version o.target) →
            (∀ g, u'.disk.exists? (i.assetPath o.version o.target) ≠ .error g) →
              (i.install next).perform u = (i.renew next >>= i.finish next).perform u') := by
  have hname := isEntryName_assetName htool.noSlash hversion.noSlash htarget.noSlash
  have hnul := noNul_assetName htool hversion htarget
  refine ⟨fun w w' f hclear hfail => obtain_vacant hname hnul hclear hfail,
    fun w v u f hensure habsent hfail => obtain_of_download hname hnul hensure habsent hfail,
    fun w v w' f hcheck hensure hclear hfail => ?_⟩
  have hvacant := install_vacant htool.noSlash hname hnul hcheck hensure hclear hfail
  refine ⟨hvacant, ?_⟩
  rintro destination token next rfl u u' hu hcache hstart hensure' hno hseen
  exact install_renews hname hnul hcheck (hu ▸ hvacant) hcache hstart hensure' hno hseen

/-- The same order as the first one, for a fresh asset. -/
def forcedOrder : Order := ⟨"v1", "t1", ⟨.here, ["out"]⟩, true, none⟩

/-- The cache holds the old asset, which is a file. -/
theorem ready_oldDisk : (ofTool ⟨.here, ["cache"]⟩).Ready forcedOrder (.fresh oldDisk []) := by
  have hname : (ofTool ⟨.here, ["cache"]⟩).assetName "v1" "t1" = "tool-v1-t1" := by decide +kernel
  refine ⟨by decide +kernel, ?_, nofun⟩
  intro l x hl hx
  obtain rfl := hl ["cache"] (by decide +kernel)
  change oldDisk.get? ((ofTool ⟨.here, ["cache"]⟩).assetName "v1" "t1" :: _) = some x at hx
  rw [hname] at hx
  obtain rfl : .file [0] 0o644 = x := Option.some.inj hx
  exact ⟨_, _, rfl⟩

/-- A fresh asset that is asked for offline leaves no old one behind, and is asked for again when
any asset would do. -/
theorem failure_clears_asset_offline :
    ∃ f w' u', ((ofTool ⟨.here, ["cache"]⟩).install forcedOrder).perform
        (.fresh oldDisk []) = (.error f, w') ∧
      w'.disk.Vacant ((ofTool ⟨.here, ["cache"]⟩).assetPath "v1" "t1") ∧
      ((ofTool ⟨.here, ["cache"]⟩).install firstOrder).perform w' =
        ((ofTool ⟨.here, ["cache"]⟩).renew firstOrder >>=
          (ofTool ⟨.here, ["cache"]⟩).finish firstOrder).perform u' := by
  obtain ⟨-, -, hinstall⟩ := failure_clears_asset (i := ofTool ⟨.here, ["cache"]⟩)
    (o := forcedOrder) ⟨by decide, by decide⟩ ⟨by decide, by decide⟩
    ⟨by decide, by decide⟩
  have hname : IsEntryName ((ofTool ⟨.here, ["cache"]⟩).assetName "v1" "t1") :=
    isEntryName_assetName (by decide) (by decide) (by decide)
  have hfail : (((ofTool ⟨.here, ["cache"]⟩).install forcedOrder).perform
      (.fresh oldDisk [])).1.isOk = false := by decide +kernel
  have hcache : (((ofTool ⟨.here, ["cache"]⟩).install forcedOrder).perform
      (.fresh oldDisk [])).2.disk.isDirectory? ⟨.here, ["cache"]⟩ = .ok true := by decide +kernel
  have hagain : ((Files.ensureDirectory ⟨.here, ["out"]⟩).perform
      (((ofTool ⟨.here, ["cache"]⟩).install forcedOrder).perform (.fresh oldDisk [])).2).1 =
        .ok () := by decide +kernel
  obtain ⟨v, hmade⟩ : ∃ v, (Files.ensureDirectory ⟨.here, ["out"]⟩).perform (.fresh oldDisk []) =
      (.ok (), v) := ⟨_, Prod.ext (by decide +kernel) rfl⟩
  rcases hrun : ((ofTool ⟨.here, ["cache"]⟩).install forcedOrder).perform
    (.fresh oldDisk []) with ⟨result, w'⟩
  rw [hrun] at hfail hcache hagain
  cases result with
  | ok p => cases hfail
  | error f =>
      have hready := ready_oldDisk.made (by decide +kernel) hmade
      obtain ⟨hvacant, hanew⟩ :=
        hinstall _ v w' f rfl hmade (fun u hu => hready.clearable hname hu) hrun
      obtain ⟨u', hnext⟩ : ∃ u', (Files.ensureDirectory ⟨.here, ["out"]⟩).perform w' =
          (.ok (), u') := ⟨_, Prod.ext hagain rfl⟩
      have hfits : Fits ((ofTool ⟨.here, ["cache"]⟩).assetPath "v1" "t1") :=
        ⟨by decide +kernel, by decide +kernel⟩
      obtain ⟨hno, habsent⟩ := absent_of_vacant (i := ofTool ⟨.here, ["cache"]⟩)
        (o := forcedOrder) hname (by decide +kernel) hfits hvacant hcache
        (fun hnil => by cases hnil) (by decide +kernel) hnext
      refine ⟨f, w', u', rfl, hvacant, ?_⟩
      refine hanew ⟨.here, ["out"]⟩ none firstOrder rfl w' u' rfl hcache
        (fun hnil => by cases hnil) hnext hno ?_
      intro g herror
      cases habsent.symm.trans herror

/-- A disk with a link in the cache. -/
def cacheLinkDisk (target : String) : Disk :=
  ⟨[(["cache"], .directory), (["tool-v1-t1", "cache"], .link target)], []⟩

/-- Where a link to a name leads that no directory can hold, cannot be said. -/
theorem exists?_cacheLinkDisk {target : String} (hname : IsEntryName target)
    (hlong : Text.Utf8.size target > nameLimit) :
    (cacheLinkDisk target).exists? ⟨.here, ["cache", "tool-v1-t1"]⟩ =
      .error (failAt ⟨.here, ["cache", "tool-v1-t1"]⟩ .nameTooLong) := by
  have hadvance : (cacheLinkDisk target).advance true [] ["cache", "tool-v1-t1"] =
      .ok (.link ["cache"] target []) := rfl
  have htext : Path.ofText target = ⟨.here, [target]⟩ := by
    rw [Path.ofText_of_noSlash hname.noSlash, if_neg (not_or.2 ⟨hname.ne_empty, hname.ne_dot⟩)]
  have htarget : targetNames target = [target] := by
    unfold targetNames
    rw [htext, Text.pieces_of_not_mem hname.noSlash]
    simp only [List.getLast?_singleton]
    split
    · next heq =>
      exact absurd (String.toList_inj.1 (Option.some.inj heq)) hname.ne_empty
    · next heq =>
      exact absurd (String.toList_inj.1 (Option.some.inj heq)) hname.ne_dot
    · rfl
  have hwalk : (cacheLinkDisk target).walk true linkLimit [] ["cache", "tool-v1-t1"] =
      .error .nameTooLong := by
    change (cacheLinkDisk target).walk true (39 + 1) [] _ = _
    rw [walk_link_succ hadvance, htarget]
    exact walk_error (advance_long hname.isName hlong [])
  have henters : (cacheLinkDisk target).Enters ⟨.here, ["cache", "tool-v1-t1"]⟩ :=
    ⟨by decide +kernel, by decide +kernel, fun _ => rfl⟩
  have hfind : (cacheLinkDisk target).find true ⟨.here, ["cache", "tool-v1-t1"]⟩ =
      .error (failAt ⟨.here, ["cache", "tool-v1-t1"]⟩ .nameTooLong) := by
    have hstart : (cacheLinkDisk target).start ⟨.here, ["cache", "tool-v1-t1"]⟩ = [] := rfl
    rw [find_of_enters henters, hstart, hwalk]
  unfold Disk.exists? ask status
  rw [hfind]
  rfl

/-- Such a link stays where it is. -/
theorem obtain_cacheLinkDisk {target : String} (hname : IsEntryName target)
    (hlong : Text.Utf8.size target > nameLimit) :
    ((ofTool ⟨.here, ["cache"]⟩).obtain firstOrder).perform (.fresh (cacheLinkDisk target) []) =
        (.error (failAt ⟨.here, ["cache", "tool-v1-t1"]⟩ .nameTooLong),
          .fresh (cacheLinkDisk target) []) ∧
      ¬(cacheLinkDisk target).Vacant ⟨.here, ["cache", "tool-v1-t1"]⟩ := by
  have hasset : (ofTool ⟨.here, ["cache"]⟩).assetPath firstOrder.version firstOrder.target =
      ⟨.here, ["cache", "tool-v1-t1"]⟩ := by decide +kernel
  constructor
  · have hdir : (cacheLinkDisk target).isDirectory? ⟨.here, ["cache"]⟩ = .ok true := rfl
    have hlook : ((ofTool ⟨.here, ["cache"]⟩).reuse firstOrder).perform
        (.fresh (cacheLinkDisk target) []) =
        (.error (failAt ⟨.here, ["cache", "tool-v1-t1"]⟩ .nameTooLong),
          .fresh (cacheLinkDisk target) []) := by
      rw [perform_reuse rfl, hasset, World.fresh, exists?_cacheLinkDisk hname hlong]
    rw [obtain_of_ensure (Files.ensureDirectory_there hdir), perform_bind, hlook]
  · intro hvacant
    have hlink : (cacheLinkDisk target).find false ⟨.here, ["cache", "tool-v1-t1"]⟩ =
        .ok ⟨["tool-v1-t1", "cache"], some (.link target)⟩ := rfl
    cases hvacant _ hlink

/-- A name that no directory can hold. -/
def longName : String := String.ofList (List.replicate 256 'n')

/-- **A link that the system does not follow stays**: the cache is looked at before anything that is
cleared up after.  And so does a directory that is made on the way to a cache which goes up from
it. -/
theorem failure_leaves_asset :
    (((ofTool ⟨.here, ["cache"]⟩).obtain firstOrder).perform
        (.fresh (cacheLinkDisk longName) [])).1 =
          .error (failAt ⟨.here, ["cache", "tool-v1-t1"]⟩ .nameTooLong) ∧
      ¬(((ofTool ⟨.here, ["cache"]⟩).obtain firstOrder).perform
        (.fresh (cacheLinkDisk longName) [])).2.disk.Vacant ⟨.here, ["cache", "tool-v1-t1"]⟩ ∧
      (((ofTool ⟨.here, ["cache", "tool-v1-t1", ".."]⟩).obtain forcedOrder).perform
        (.fresh ⟨[], []⟩ [])).1.isOk = false ∧
      (((ofTool ⟨.here, ["cache", "tool-v1-t1", ".."]⟩).obtain forcedOrder).perform
        (.fresh ⟨[], []⟩ [])).2.disk.find false
          ((ofTool ⟨.here, ["cache", "tool-v1-t1", ".."]⟩).assetPath "v1" "t1") =
        .ok ⟨["tool-v1-t1", "cache"], some .directory⟩ := by
  have hlist : longName.toList = List.replicate 256 'n' := String.toList_ofList
  have hne (s : String) (hs : s.toList ≠ List.replicate 256 'n') : longName ≠ s := by
    rintro rfl
    exact hs hlist
  have hname : IsEntryName longName :=
    ⟨by rw [hlist]; decide, hne _ (by decide), hne _ (by decide), hne _ (by decide)⟩
  obtain ⟨hfail, hstays⟩ := obtain_cacheLinkDisk hname (by decide +kernel)
  rw [hfail]
  exact ⟨rfl, hstays, by decide +kernel⟩

end Installer

end ReleaseFetch
