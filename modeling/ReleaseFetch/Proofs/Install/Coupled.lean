/-
**Two installations side by side.**

Whatever two runs may differ in, what they do with an answer is the same: they judge its status,
keep its body, place the asset and report.  So the steps of a download and of an installation are
coupled as soon as the requests and the commands are that they send and start, and these are all
that is left to be shown about a difference in the credentials, or in the environment, of two runs.

Main definitions:

* `ReleaseFetch.Installer.Beside` — installers whose assets and binaries have the same places.

Main results:

* `ReleaseFetch.Stream.follow_coupled` — a chain of requests, from its hops;
* `ReleaseFetch.Shell.launch_coupled`, `ReleaseFetch.Client.askText_coupled` — one command, and one
  request;
* `ReleaseFetch.Installer.Beside.install_coupled` — an installation, from its download.
-/

import ReleaseFetch.Proofs.Credential.Scope
import ReleaseFetch.Proofs.Session.Coupled

set_option autoImplicit false

namespace ReleaseFetch

open Session

variable {K : Coupling}

/-! ### Streams -/

namespace Stream

theorem ask_coupled {q q' : Request} (hq : K.request q q') (hurl : q.url = q'.url)
    (destination : Path) (note : String) :
    Coupled K (ask q destination note) (ask q' destination note) := by
  refine .bind (.log _ _ _) fun _ => .handle (.send hq) (fun r => .pure r) ?_
  intro f
  simp only [hurl]
  split
  · exact .bind (.of_local (Files.discard_local _)) fun _ => .fail _
  · exact .throw f

theorem judge_coupled (url : String) (r : Response) : Coupled K (judge url r) (judge url r) := by
  unfold judge
  refine .bind (.log _ _ _) ?_
  intro _
  split
  · refine .bind (.close r) ?_
    intro _
    split
    · exact .fail _
    · exact .bind (.give _) fun next => .bind (.log _ _ _) fun _ => .pure _
  · split
    · exact .bind (.close r) fun _ => .fail _
    · exact .pure _

theorem keep_coupled (r : Response) (destination : Path) :
    Coupled K (keep r destination) (keep r destination) := by
  rw [keep_prepare]
  refine .bind (.of_local (prepare_ofDisk destination).isLocal) fun temporary =>
    .bind (.attempt ?_) fun outcome => ?_
  · have hfill : Coupled K (fill r temporary destination) (fill r temporary destination) :=
      .bind (.startReading r chunkSize) fun _ => .bind (.of_local (receive_local _ _)) fun _ =>
        .of_local (.change _)
    exact .handle hfill (fun u => .pure _) fun f => .of_local (abandon_local destination f)
  · exact .bind (.close r) fun _ => .bind (.of_local (Files.discard_local _)) fun _ => .give outcome

/-- **A chain of requests is coupled if its hops are.** -/
theorem follow_coupled {c c' : Client} {h h' : Host} {o o' : Options} {destination : Path}
    (hhop : ∀ url, Coupled K (hop c h o destination url) (hop c' h' o' destination url))
    (first : String) (limit : Int) (left : Nat) (url : String) :
    Coupled K (follow c h o destination first limit left url)
      (follow c' h' o' destination first limit left url) := by
  induction left generalizing url with
  | zero => exact .fail _
  | succ left ih =>
      unfold follow
      refine .bind (hhop url) fun r => .bind (judge_coupled url r) ?_
      intro n
      cases n with
      | go next => exact ih next
      | finish r' => exact .bind (keep_coupled r' destination) fun _ => .log _ _ _

end Stream

/-! ### One command, and one request -/

theorem Shell.launch_coupled {executable : String} {j j' : Script.Job}
    (h : K.command (command executable j) (command executable j')) (destination : Path) :
    Coupled K (launch executable destination j) (launch executable destination j') := by
  refine .handle (.execute h) (fun ran => ?_) fun f => ?_
  · obtain ⟨code, stderr⟩ := ran
    simp only
    split
    · exact .bind (.of_local (Files.discard_local _)) fun _ => .fail _
    · exact .log _ _ _
  · simp only
    split
    · exact .bind (.of_local (Files.discard_local _)) fun _ => .fail _
    · exact .throw f

theorem Client.askText_coupled {q q' : Request} (hq : K.request q q') (hurl : q.url = q'.url) :
    Coupled K (askText q) (askText q') := by
  rw [askText, askText, ← hurl]
  refine .bind (.handle (.send hq) (fun r => .pure r) fun f => ?_) fun response => ?_
  · simp only
    split
    · exact .fail _
    · exact .throw f
  · split
    · exact .bind (.fail _) fun _ => .pure _
    · exact .pure _

/-! ### Installations -/

/-- A search is coupled if asking for the description of the release is. -/
theorem Release.locate_coupled {c c' : Client} {h h' : Host} {q q' : Query}
    (hversion : q.version = q'.version) (hasset : q.asset = q'.asset)
    (htext : Coupled K (c.getText h (url q.apiHost q.repo q.version) q.options)
      (c'.getText h' (url q'.apiHost q'.repo q'.version) q'.options)) :
    Coupled K (locate c h q) (locate c' h' q') := by
  unfold locate
  rw [← hasset]
  refine .bind ?_ fun _ => .bind htext fun body => .bind (.of_local (readListing_quiet body).isLocal)
    fun listing => .of_local (pick_quiet listing q.asset).isLocal
  rw [hversion]
  exact .log _ _ _

namespace Installer

/-- Two installers whose assets and binaries have the same places. -/
structure Beside (i i' : Installer) : Prop where
  config : i.config = i'.config
  isWindows : i.host.isWindows = i'.host.isWindows
  cacheDir : i.cacheDir = i'.cacheDir

namespace Beside

variable {i i' : Installer}

theorem refl (i : Installer) : i.Beside i := ⟨rfl, rfl, rfl⟩

theorem assetName (hb : i.Beside i') (version target : String) :
    i.assetName version target = i'.assetName version target := by
  rw [Installer.assetName, Installer.assetName, Host.extension, Host.extension, hb.config,
    hb.isWindows]

theorem assetPath (hb : i.Beside i') (version target : String) :
    i.assetPath version target = i'.assetPath version target := by
  rw [Installer.assetPath, Installer.assetPath, hb.cacheDir, hb.assetName]

theorem place (hb : i.Beside i') (asset directory : Path) :
    i.place asset directory = i'.place asset directory := by
  simp only [Installer.place, extract, installedName, hb.config, hb.isWindows]

theorem finish (hb : i.Beside i') (o : Order) (token : Option String) (asset : Path) :
    i.finish o asset = i'.finish { o with token := token } asset := by
  simp only [Installer.finish, hb.place, hb.config, invalidate, hb.assetPath]

/-- **An installation is coupled if its download is.** -/
theorem install_coupled (hb : i.Beside i') {o : Order} (token : Option String)
    (hdownload : Coupled K (i.download o) (i'.download { o with token := token })) :
    Coupled K (i.install o) (i'.install { o with token := token }) := by
  have hobtain : Coupled K (i.obtain o) (i'.obtain { o with token := token }) := by
    rw [obtain_eq, obtain_eq, ← hb.cacheDir]
    refine .bind (.of_local (Files.ensureDirectory_local _)) fun _ => .bind ?_ fun cached => ?_
    · rw [reuse, reuse, ← hb.assetPath]
      simp only
      split
      · exact .pure _
      · exact .look _
    · rw [renew, renew, ← hb.assetPath]
      cases cached with
      | true => exact .bind (.log _ _ _) fun _ => .pure _
      | false =>
          exact .handle hdownload (fun _ => .pure _) fun f => .bind (.log _ _ _) fun _ =>
            .bind (.of_local (Files.discard_local _)) fun _ => .throw f
  rw [install_eq, install_eq]
  refine .bind (.give _) fun _ => .bind (.of_local (Files.ensureDirectory_local _)) fun _ =>
    .bind hobtain fun asset => ?_
  rw [← hb.finish]
  exact .of_local (i.finish_local o asset)

end Beside

end Installer

end ReleaseFetch
