/-
**What an installation leaves behind.**

Off Windows, an installation that succeeds leaves an executable whose bytes are those of the asset
in the cache.  Whether anything was asked for is decided by the cache: unless a fresh asset is
asked for, one that stands where the path of the asset leads is used as it is.  Two dots in the path
of the cache are taken back by name here, since every directory on the way to the cache is made
before the cache is looked at.

Main definitions:

* `ReleaseFetch.IsPart` — a text that a name may be put together from.

Main results:

* `ReleaseFetch.Installer.installs_binary` — the binary, its bytes, and the requests;
* `ReleaseFetch.Installer.reuses_behind_missing` — an asset that cannot be seen before the
  installation, and is used all the same.
-/

import ReleaseFetch.Proofs.Install.Placement

set_option autoImplicit false

namespace ReleaseFetch

open Disk Session

/-- A text that a name may be put together from. -/
structure IsPart (s : String) : Prop where
  noSlash : '/' ∉ s.toList
  noNul : '\x00' ∉ s.toList

namespace Installer

variable {i : Installer}

/-- A host that is not Windows streams its downloads. -/
theorem transport_of_host (htransport : i.transport? = none) (hhost : i.host.isWindows = false) :
    i.transport = .stream i.host i.client i.config.maxRedirects := by
  rw [transport, htransport, Option.getD_none, Transport.forHost, hhost]
  rfl

theorem noNul_assetName (htool : IsPart i.config.toolName) {version target : String}
    (hversion : IsPart version) (htarget : IsPart target) :
    '\x00' ∉ (i.assetName version target).toList := by
  have hext : '\x00' ∉ i.host.extension.toList := by
    unfold Host.extension
    split <;> decide
  simp [assetName_toList, htool.noNul, hversion.noNul, htarget.noNul, hext]

/-- **An installation leaves an executable with the bytes of its asset**: those of the last reply of
a download, if a fresh asset is asked for or none is in the cache, and else those of the cache. -/
theorem installs_binary (htransport : i.transport? = none) (hhost : i.host.isWindows = false)
    (hcache : i.cacheDir.Readable) (htool : IsPart i.config.toolName) {o : Order}
    (hversion : IsPart o.version) (htarget : IsPart o.target) {w w' : World} (hw : w.disk.Plain)
    {p : Path} (hok : (i.install o).perform w = (.ok p, w')) :
    p = o.destination.child i.config.toolName ∧ ∃ b,
      (∃ place, w'.disk.status p = .ok place ∧
        place.entry = some (.file b Files.executableMode)) ∧
      w'.disk.read (i.assetPath o.version o.target) = .ok b ∧
      (o.force = true ∨ w.disk.get? (w.disk.locationOf (i.assetPath o.version o.target)) = none →
        Fetched (i.query o) i.config.maxRedirects b w w') ∧
      (¬(o.force = true ∨
          w.disk.get? (w.disk.locationOf (i.assetPath o.version o.target)) = none) →
        w'.exchanges = w.exchanges ∧ w'.answers = w.answers ∧
          ∃ m, w.disk.get? (w.disk.locationOf (i.assetPath o.version o.target)) =
            some (.file b m)) := by
  have hname := isEntryName_assetName htool.noSlash hversion.noSlash htarget.noSlash
  have hnul := noNul_assetName htool hversion htarget
  rw [install_eq] at hok
  obtain ⟨_, w₀, hcheck, hensured⟩ := bind_ok hok
  obtain ⟨-, rfl⟩ := give_ok hcheck
  obtain ⟨_, w₁, hensure, hobtained⟩ := bind_ok hensured
  obtain ⟨asset, w₂, hobtain, hfinish⟩ := bind_ok hobtained
  -- the destination is made first, which changes no file and sends nothing
  have hmade := Files.ensureDirectory_edited o.destination hw
  have htraffic := (Files.ensureDirectory_local o.destination).traffic w₀
  have htail := (finish_local i o asset).traffic w₂
  have hstands := Files.stands_of_ensureDirectory hw hensure
  rw [hensure] at hmade htraffic
  rw [hfinish] at htail
  obtain ⟨v, v', hv, hv', hplace⟩ := finish_ok hfinish
  -- the binary and the asset have different names, so placing one leaves the other alone
  have hplaced (hedit : w₁.disk.Within w₂.disk) (hplain : w₂.disk.Plain)
      (hasset : asset = i.assetPath o.version o.target) :
      p = o.destination.child i.config.toolName ∧ ∃ b k,
        w₂.disk.get? (w₂.disk.locationOf asset) = some (.file b k) ∧
        w'.disk.Holds p b Files.executableMode ∧ w'.disk.Holds asset b k := by
    rw [← hv] at hedit hplain ⊢
    obtain ⟨hentry, hp, b, k, hfile, hholds, -, hkept⟩ :=
      place_ok htool.noSlash hhost hplain (hedit.seen hstands.seen) hplace
    rw [hv']
    refine ⟨hp, b, k, hfile, hholds, hkept fun heq => ?_⟩
    rw [hp, hasset, locationOf_child _ _ hentry, assetPath, locationOf_child _ _ hname] at heq
    have hlt := i.installedName_length_lt o.version o.target
    rw [(List.cons.inj heq).1, installedName, hhost] at hlt
    exact absurd hlt (Nat.lt_irrefl _)
  have htransport' := transport_of_host htransport hhost
  generalize hout : (Except.ok asset : Except Failure Path) = out at hobtain
  cases obtain_spec htransport' hcache hname hmade.plain hobtain with
  | failed spared => cases hout
  -- what was in the cache is installed, so it stood there before and nothing was sent
  | cached notForced traffic edited =>
      obtain rfl := Except.ok.inj hout
      obtain ⟨hp, b, k, hfile, hholds, hasset⟩ := hplaced edited.toWithin edited.plain rfl
      rw [edited.locationOf, hmade.locationOf] at hfile
      have hbefore := (hmade.file_iff id b k).1 ((edited.file_iff id b k).1 hfile)
      refine ⟨hp, b, ⟨_, hholds.status, rfl⟩, hasset.read, fun hasked => ?_, fun _ => ?_⟩
      · rcases hasked with hforce | hnone
        · rw [notForced] at hforce
          cases hforce
        · rw [hnone] at hbefore
          cases hbefore
      · have hall := (htail.trans traffic).trans htraffic
        exact ⟨congrArg Traffic.exchanges hall, congrArg Traffic.answers hall, k, hbefore⟩
  -- what was fetched is installed, whether or not something could be seen before
  | fetched asked fetched edited file =>
      obtain rfl := Except.ok.inj hout
      obtain ⟨hp, b, k, hfile, hholds, hasset⟩ := hplaced edited.toWithin edited.plain rfl
      rw [edited.locationOf] at hfile
      obtain ⟨rfl, -⟩ := Entry.file.inj (Option.some.inj (hfile.symm.trans file))
      refine ⟨hp, b, ⟨_, hholds.status, rfl⟩, hasset.read,
        fun _ => fetched.congr htraffic htail, fun hnot => absurd ?_ hnot⟩
      refine asked.imp_right ?_
      intro hnone
      rw [← hmade.locationOf]
      exact hmade.none_of_none id (hnone hnul)

/-- An asset that is downloaded over a redirect is installed. -/
theorem installs_binary_redirected :
    ∃ p w', ((ofTool ⟨.here, ["cache"]⟩).install firstOrder).perform
        (.fresh ⟨[], []⟩ firstAnswers) = (.ok p, w') ∧
      p = Path.child ⟨.here, ["out"]⟩ "tool" ∧ ∃ b,
        (∃ place, w'.disk.status p = .ok place ∧
          place.entry = some (.file b Files.executableMode)) ∧
        Fetched ((ofTool ⟨.here, ["cache"]⟩).query firstOrder) 5 b
          (.fresh ⟨[], []⟩ firstAnswers) w' := by
  have hok : (((ofTool ⟨.here, ["cache"]⟩).install firstOrder).perform
      (.fresh ⟨[], []⟩ firstAnswers)).1 = .ok ⟨.here, ["out", "tool"]⟩ := by decide +kernel
  have hperform : ((ofTool ⟨.here, ["cache"]⟩).install firstOrder).perform
      (.fresh ⟨[], []⟩ firstAnswers) = (.ok ⟨.here, ["out", "tool"]⟩, _) := Prod.ext hok rfl
  obtain ⟨hp, b, hfile, -, hfetched, -⟩ :=
    installs_binary (i := ofTool ⟨.here, ["cache"]⟩) (o := firstOrder) rfl (by decide)
      (by simp [Path.Readable, ofTool]) ⟨by decide, by decide⟩ ⟨by decide, by decide⟩
      ⟨by decide, by decide⟩ (w := .fresh ⟨[], []⟩ firstAnswers) (plain_of_isPlain rfl) hperform
  exact ⟨_, _, hperform, hp, b, hfile, hfetched (.inr (by decide +kernel))⟩

/-- **An asset that cannot be seen is used all the same**: the path of the cache goes up from a
directory that is missing, and once that directory is made, the asset is there. -/
theorem reuses_behind_missing :
    oldDisk.Plain ∧
      oldDisk.exists? ((ofTool ⟨.here, ["new", "..", "cache"]⟩).assetPath "v1" "t1") =
        .ok false ∧
      (((ofTool ⟨.here, ["new", "..", "cache"]⟩).install firstOrder).perform
        (.fresh oldDisk firstAnswers)).1 = .ok ⟨.here, ["out", "tool"]⟩ ∧
      (((ofTool ⟨.here, ["new", "..", "cache"]⟩).install firstOrder).perform
        (.fresh oldDisk firstAnswers)).2.exchanges = [] := by
  refine ⟨plain_of_isPlain (by decide), ?_, ?_, ?_⟩
  · decide +kernel
  · decide +kernel
  · decide +kernel

end Installer

end ReleaseFetch
