/-
**A streamed download is all or nothing.**

However a stream ends, what is left of it is a whole file at its destination, or there what stood
there before, or nothing.  Besides the destination only directories above it come in, so that no
private file stays behind.

Main results:

* `ReleaseFetch.Stream.download_made` — the directories that a download makes;
* `ReleaseFetch.Stream.download_atomic` — a download is all or nothing, wherever it is cut off.
-/

import ReleaseFetch.Proofs.Disk.Building
import ReleaseFetch.Proofs.Disk.Turning
import ReleaseFetch.Proofs.Install.Obtaining

set_option autoImplicit false

namespace ReleaseFetch

open Disk Session

/-! ### A path without names -/

/-- The working directory and the root are directories. -/
theorem Disk.isDirectory?_of_no_names (d : Disk) {p : Path} (hp : p.names = []) :
    d.isDirectory? p = .ok true := by
  have hsize : ¬Text.Utf8.size p.text > pathLimit := by
    cases hroot : p.root <;> simp [Path.text, hp, hroot] <;> decide
  refine isDirectory?_iff.2 ⟨d.start p, ?_⟩
  simp [find, hasNul, locate, hp, hsize, walk, advance, linkLimit]

/-- No directory is made for a path without names. -/
theorem Files.ensureDirectory_of_no_names {T : Motion} {p : Path} (hp : p.names = []) :
    (ensureDirectory p).Moves T := by
  intro w
  rw [ensureDirectory_there (w.disk.isDirectory?_of_no_names hp)]
  exact T.refl w

namespace Stream

/-- **The directories that a download makes** lie above its destination. -/
theorem download_made (c : Client) (h : Host) (limit : Int) (url : String) (o : Options)
    {destination : Path} (hdest : destination.Descends) :
    (download c h limit url destination o).Moves
      (Motion.builds fun p => destination.names ≠ [] ∧ p = destination.parent) := by
  refine download_builds c h limit url o ?_
  by_cases hnames : destination.names = []
  · refine Files.ensureDirectory_of_no_names ?_
    rw [Path.parent_names, hnames]
    rfl
  · exact Files.ensureDirectory_builds hdest.parent ⟨hnames, rfl⟩ fun _ => List.suffix_refl _

/-- **A download is all or nothing.**  Whatever the server answers, and wherever the transfer is
cut off: besides the destination only new directories above it come in.  If the download succeeds,
the body of the last reply of a chain stands at the destination, and if it fails, what stood there
before or nothing. -/
theorem download_atomic (c : Client) (h : Host) (limit : Int) (url : String) (o : Options)
    {destination : Path} (hdest : destination.Descends) {w w' : World} (hw : w.disk.Plain)
    {out : Except Failure Unit}
    (hout : (download c h limit url destination o).perform w = (out, w')) :
    (∀ l, l ≠ w.disk.locationOf destination →
        w'.disk.get? l = w.disk.get? l ∨
          w.disk.get? l = none ∧ w'.disk.get? l = some .directory ∧
            l <:+ w.disk.locationOf destination) ∧
      ((∃ hops b, out = .ok () ∧ Arrived url hops b w w' ∧
          w'.disk.Holds destination b privateMode) ∨
        (∃ f, out = .error f) ∧
          (w'.disk.get? (w.disk.locationOf destination) = none ∨
            w'.disk.get? (w.disk.locationOf destination) =
              w.disk.get? (w.disk.locationOf destination))) := by
  have hname (hnames : destination.names ≠ []) : IsName destination.name := by
    refine hdest.isName _ ?_
    rw [Path.name, List.getLast?_eq_some_getLast hnames]
    exact List.getLast_mem hnames
  have hbuilt : Built (fun l => ∃ p, (destination.names ≠ [] ∧ p = destination.parent) ∧
      l <:+ w.disk.locationOf p) w.disk w'.disk := by
    have hmoves := download_made c h limit url o hdest w hw
    rwa [hout] at hmoves
  have hspec := follow_spec c h o hdest.parent.readable hname url limit _ url hw hout
  have hedit : Edited (· = w.disk.locationOf destination) w.disk w'.disk := by
    rcases hspec with ⟨_, _, -, -, -, hedit, -⟩ | ⟨-, hspares⟩
    · exact hedit
    · exact (hspares hw).1
  refine ⟨fun l hl => (hedit.kept l hl).imp_right ?_, ?_⟩
  · rintro ⟨hnone, hdir⟩
    refine ⟨hnone, hdir, ?_⟩
    rcases hbuilt.made hdir with hbefore | ⟨p, ⟨-, rfl⟩, hsuffix⟩
    · rw [hnone] at hbefore
      cases hbefore
    · exact hsuffix.trans (hdest.parent_suffix w.disk)
  rcases hspec with ⟨hops, b, hok, -, harrived, -, hholds⟩ | ⟨herror, hspares⟩
  · exact .inl ⟨hops, b, hok, harrived, hholds⟩
  refine .inr ⟨herror, ?_⟩
  rcases hedit.plain.entry_cases (w.disk.locationOf destination) with hnone | hdir | ⟨b, m, hfile⟩
  · exact .inl hnone
  · rcases hbuilt.made hdir with hbefore | ⟨p, ⟨hnames, rfl⟩, hsuffix⟩
    · exact .inr (hdir.trans hbefore.symm)
    -- the destination lies below the directories that are made
    · rw [w.disk.locationOf_eq_cons hnames (hname hnames)] at hsuffix
      exact absurd hsuffix.length_le (by simp)
  · exact .inr (hfile.trans ((hspares hw).2 b m hfile).symm)

/-- A disk with an old file where a download goes. -/
def olderFile : Disk := ⟨[(["dl"], .directory), (["tool", "dl"], .file [0] 0o644)], []⟩

/-- A redirect, and a body in parts. -/
def redirectedAnswers (chunks : List Chunk) : List Answer :=
  [.reply ⟨302, [("Location", "/y")], "", []⟩, .reply ⟨200, [], "", chunks⟩]

/-- A world with the old file, where the body is interrupted after its first part. -/
def brokenWorld : World :=
  .fresh olderFile (redirectedAnswers [.bytes [1], .bytes [], .failure .interrupt])

/-- The same world, where the body comes to its end. -/
def wholeWorld : World := .fresh olderFile (redirectedAnswers [.bytes [1], .bytes [], .bytes [2]])

/-- A download to where the old file stands. -/
def olderDownload : Session Unit :=
  download .own ⟨"linux", "x86_64", []⟩ 1 "https://a.org/x" ⟨.here, ["dl", "tool"]⟩
    ⟨[], none, defaultTrustedHost, none⟩

/-- An interrupted download leaves the old file, and one that succeeds leaves the whole body.
Neither leaves anything beside it. -/
theorem download_atomic_older :
    (∃ w', olderDownload.perform brokenWorld = (.error .interrupt, w') ∧
      (∀ l, l ≠ ["tool", "dl"] → w'.disk.get? l = olderFile.get? l ∨
        olderFile.get? l = none ∧ w'.disk.get? l = some .directory ∧ l <:+ ["tool", "dl"]) ∧
      (w'.disk.get? ["tool", "dl"] = none ∨
        w'.disk.get? ["tool", "dl"] = some (.file [0] 0o644))) ∧
    ∃ w' hops, olderDownload.perform wholeWorld = (.ok (), w') ∧
      (∀ l, l ≠ ["tool", "dl"] → w'.disk.get? l = olderFile.get? l ∨
        olderFile.get? l = none ∧ w'.disk.get? l = some .directory ∧ l <:+ ["tool", "dl"]) ∧
      Arrived "https://a.org/x" hops [1, 2] wholeWorld w' ∧
      w'.disk.Holds ⟨.here, ["dl", "tool"]⟩ [1, 2] privateMode := by
  have hdest : Path.Descends ⟨.here, ["dl", "tool"]⟩ := ⟨by simp [Path.Readable], rfl⟩
  have hplain : olderFile.Plain := plain_of_isPlain (by decide)
  constructor
  · have hran : (olderDownload.perform brokenWorld).1 = .error .interrupt := by decide +kernel
    rcases hperform : olderDownload.perform brokenWorld with ⟨out, w'⟩
    rw [hperform] at hran
    obtain rfl : out = .error .interrupt := hran
    obtain ⟨hframe, ⟨_, _, hok, -⟩ | ⟨-, hend⟩⟩ := download_atomic .own ⟨"linux", "x86_64", []⟩ 1
      "https://a.org/x" ⟨[], none, defaultTrustedHost, none⟩ hdest hplain hperform
    · cases hok
    · exact ⟨w', rfl, hframe, hend⟩
  · have hran : (olderDownload.perform wholeWorld).1 = .ok () := by decide +kernel
    have hfile : (olderDownload.perform wholeWorld).2.disk.get?
        ((olderDownload.perform wholeWorld).2.disk.locationOf ⟨.here, ["dl", "tool"]⟩) =
          some (.file [1, 2] privateMode) := by decide +kernel
    rcases hperform : olderDownload.perform wholeWorld with ⟨out, w'⟩
    rw [hperform] at hran hfile
    obtain rfl : out = .ok () := hran
    obtain ⟨hframe, ⟨hops, b, -, harrived, hholds⟩ | ⟨⟨f, hfailed⟩, -⟩⟩ :=
      download_atomic .own ⟨"linux", "x86_64", []⟩ 1 "https://a.org/x"
        ⟨[], none, defaultTrustedHost, none⟩ hdest hplain hperform
    · obtain ⟨rfl, -⟩ := Entry.file.inj (Option.some.inj (hholds.file.symm.trans hfile))
      exact ⟨w', hops, rfl, hframe, harrived, hholds⟩
    · cases hfailed

end Stream

end ReleaseFetch
