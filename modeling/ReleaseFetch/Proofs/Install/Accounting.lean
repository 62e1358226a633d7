/-
**An installation gives account of how it ends.**

What an installation does on the disk is steady: no interrupt ends it and no failure is reported.
What it sends and starts may meet an interrupt, which every handler on the way passes on, with one
exception: the asset is discarded before the interrupt goes on, and a path that the system cannot be
given makes that fail.  So an installation ends with an interrupt exactly if one was met and the
path of its asset holds no null character.

Main results:

* `ReleaseFetch.Stream.keep_accounts`, `ReleaseFetch.Stream.follow_accounts`,
  `ReleaseFetch.Shell.download_accounts` — downloads;
* `ReleaseFetch.Release.locate_accounts` — the search for an asset;
* `ReleaseFetch.Installer.obtain_accounts`, `ReleaseFetch.Installer.install_accounts` — assets and
  installations.
-/

import ReleaseFetch.Proofs.Install.Clearing
import ReleaseFetch.Proofs.Session.Accounting

set_option autoImplicit false

namespace ReleaseFetch

open Disk Session

/-! ### What is decided before a request -/

theorem Stream.shownProxy_unbroken (proxy : Option String) : Unbroken (shownProxy proxy) := by
  cases proxy with
  | none => exact .ok _
  | some p => exact Proxy.redacted_unbroken p

theorem Shell.credentialFor_unbroken (proxy : Option String) : Unbroken (credentialFor proxy) := by
  cases proxy with
  | none => exact .ok _
  | some p => exact Script.credentialOf_unbroken p

theorem Proxy.forRequest_steady (h : Host) (url : String) (o : Options) :
    (forRequest h url o).Steady := by
  unfold forRequest
  split
  · exact .pure _
  · refine .bind (.give (choose_unbroken h url)) ?_
    intro choice
    cases choice with
    | direct => exact .pure _
    | through proxy => exact .pure _
    | excepted hostname => exact .bind (.log (by decide) _ _) fun _ => .pure _

/-! ### Keeping a response -/

namespace Stream

theorem openPartial_steady (directory destination : Path) (left : Nat) :
    (openPartial directory destination left).Steady := by
  induction left with
  | zero => exact .throw rfl
  | succ left ih =>
      refine .bind .get fun w => .bind (.give (w.disk.createNew_unbroken _)) ?_
      intro made
      cases made with
      | none => exact ih
      | some d => exact .bind (.change fun _ => .ok d) fun _ => .pure _

/-- No interrupt ends the preparation of a destination. -/
theorem prepare_steady (destination : Path) : (prepare destination).Steady :=
  .bind (Files.ensureDirectory_steady destination.parent) fun _ =>
    .bind (.look fun d => partialDirectory_unbroken d destination) fun directory =>
      openPartial_steady directory destination attemptLimit

/-- A failure that is no interrupt is reported and followed by another one. -/
theorem abandon_refuses (destination : Path) {f : Failure} (hf : f.isInterrupt = false) :
    (abandon destination f).Refuses := by
  unfold abandon
  rw [hf]
  refine .log _ _ _ fun _ => .after (Files.discard_steady destination) fun _ => ?_
  split
  · exact .fail _
  · exact .throw hf

/-- The response came between the worlds: one request was sent, and nothing else. -/
structure Came (r : Response) (w v : World) : Prop where
  answers : w.answers = .reply r.reply :: v.answers
  number : r.exchange = w.exchanges.length
  sent : ∃ q, v.exchanges = w.exchanges ++ [Exchange.opened q true]
  commands : v.commands = w.commands
  shellReplies : v.shellReplies = w.shellReplies

theorem Came.congr {r : Response} {w v v' : World} (h : Came r w v) (hv : v'.traffic = v.traffic) :
    Came r w v' := by
  obtain ⟨hanswers, hnumber, ⟨q, hsent⟩, hcommands, hreplies⟩ := h
  refine ⟨?_, hnumber, ⟨q, (congrArg Traffic.exchanges hv).trans hsent⟩,
    (congrArg Traffic.commands hv).trans hcommands,
    (congrArg Traffic.shellReplies hv).trans hreplies⟩
  rw [hanswers, show v'.answers = v.answers from congrArg Traffic.answers hv]

/-- **A body that is read** gives account: it breaks off with an interrupt if its chunks do. -/
theorem fill_accounts {r : Response} {w₀ w v : World} (hw : w₀.Undisturbed w) (hcame : Came r w v)
    {temporary : Path} (destination : Path) {l : Location} {m : Nat}
    (hfound : v.disk.find false temporary = .ok ⟨l, some (.file [] m)⟩) :
    Accounted True w₀ v ((fill r temporary destination).perform v) := by
  obtain ⟨hanswers, hnumber, ⟨q, hsent⟩, hcommands, hreplies⟩ := hcame
  have hreading : ((startReading r chunkSize).perform v).2.disk.find false temporary =
      .ok ⟨l, some (.file [] m)⟩ := hfound
  have hexchanges : ((startReading r chunkSize).perform v).2.exchanges =
      w.exchanges ++ [{ Exchange.opened q true with chunkSize := some chunkSize }] := by
    rw [perform_startReading, hsent, hnumber]
    exact modify_last _ _ _
  -- whatever is written, the body has met an interrupt if its chunks break off with one
  have hends (out : Except Failure Unit) (e : Disk)
      (hout : out = .error .interrupt ↔ Chunk.gather r.reply.chunks = .error .interrupt) :
      Accounted True w₀ v
        (out, { ((startReading r chunkSize).perform v).2 with disk := e }) := by
    refine .of_answer hw (hw.since.exchange hexchanges ?_ hcommands hreplies)
      (hw.since.interrupted_exchange hexchanges hcommands) ?_ (j := []) ?_
      fun hreported => absurd hreported not_reported_nil
    · rw [hanswers]
      rfl
    · rw [hout, hanswers]
      simp [Answer.Interrupts]
    · rw [List.append_nil]
      rfl
  obtain ⟨e, got, hreceive, -⟩ := receive_gather r.reply.chunks hreading
  have hfill : (fill r temporary destination).perform v =
      (receive temporary r.reply.chunks >>= fun _ =>
        change (·.replace temporary destination)).perform
          ((startReading r chunkSize).perform v).2 := rfl
  rw [hfill, perform_bind, hreceive]
  cases hgather : Chunk.gather r.reply.chunks with
  | error f => exact hends _ e (by simp [hgather])
  | ok bytes =>
      -- a body that is read to its end is moved, which no interrupt ends
      simp only [Except.map, perform_change]
      cases hreplace : e.replace temporary destination with
      | ok d => exact hends _ d (by simp [hgather])
      | error f =>
          have hf := replace_unbroken e temporary destination f hreplace
          refine hends _ e ?_
          rw [hgather]
          refine ⟨fun hbroken => ?_, (fun hbroken => by cases hbroken)⟩
          rw [Except.error.inj hbroken] at hf
          cases hf

/-- **A response whose private file is made** is read and closed, and gives account. -/
theorem conclude_accounts {r : Response} {w₀ w v : World} (hw : w₀.Undisturbed w)
    (hcame : Came r w v) {temporary : Path} (destination : Path) {l : Location} {m : Nat}
    (hfound : v.disk.find false temporary = .ok ⟨l, some (.file [] m)⟩) :
    Accounted True w₀ v ((conclude r temporary destination).perform v) := by
  have hsettle : Accounted True w₀ v ((settle r temporary destination).perform v) := by
    refine .handle (fill_accounts hw hcame destination hfound) (fun _ => .of_steady (.pure _))
      (fun f hf => abandon_refuses destination hf) ?_
    exact .throw trivial
  refine .handle hsettle ?_ ?_ ?_
  · exact fun _ => .of_steady (.bind (.close r) fun _ => .bind (Files.discard_steady temporary)
      fun _ => .give (.ok _))
  · exact fun f hf => .after (.close r) fun _ => .after (Files.discard_steady temporary)
      fun _ => .throw hf
  · -- the private file was found, so its path can be given to the system
    exact .after (.close r) (fun _ => ⟨_, rfl⟩) fun _ =>
      .after (Files.discard_steady temporary) (fun _ => Files.discard_ok (noNul_of_found hfound))
        fun _ => .throw trivial

/-- **A response that is kept** gives account. -/
theorem keep_accounts {r : Response} {w₀ w v : World} (hw : w₀.Undisturbed w) (hcame : Came r w v)
    (hv : w₀.Undisturbed v) (destination : Path) :
    Accounted True w₀ v ((keep r destination).perform v) := by
  rw [keep_prepare]
  refine .bind (.of_steady (prepare_steady destination) hv) ?_
  intro temporary v' hprepare _
  -- up to here nothing was sent, started or read
  have htraffic := (prepare_ofDisk destination).isLocal.traffic v
  rw [hprepare] at htraffic
  have hcame' := hcame.congr htraffic
  cases prepare_prepared hprepare with
  | made n ensured _ hnew =>
      obtain ⟨l, hfind, -, rfl⟩ := createNew_turned hnew
      exact conclude_accounts hw hcame' destination
        (find_put_file hfind (by simp) [] privateMode).1

/-! ### The chain of requests -/

/-- A request that is sent gives account, also where its failure clears the destination. -/
theorem ask_accounts (q : Request) (destination : Path) (note : String) :
    (ask q destination note).Accounts True := by
  refine .after (.log (by decide) _ _) fun _ => .handle (send_accounts q)
    (fun _ => .of_steady (.pure _)) ?_ (.throw trivial)
  intro f hf
  simp only
  split
  · exact .after (Files.discard_steady destination) fun _ => .fail _
  · exact .throw hf

theorem hop_accounts (c : Client) (h : Host) (o : Options) (destination : Path) (url : String) :
    (hop c h o destination url).Accounts True := by
  rw [hop_eq]
  exact .after (.give (o.headers.scopedTo_unbroken url o.trustedHost)) fun headers =>
    .after (Proxy.forRequest_steady h url o) fun proxy =>
      .after (.give (shownProxy_unbroken proxy)) fun shown => ask_accounts _ destination _

theorem judge_steady (url : String) (r : Response) : (judge url r).Steady := by
  unfold judge
  refine .bind (.log (by decide) _ _) ?_
  intro _
  split
  · refine .bind (.close r) ?_
    intro _
    split
    · exact .fail _
    · next location _ =>
      exact .bind (.give (Url.join_unbroken url location)) fun next =>
        .bind (.log (by decide) _ _) fun _ => .pure _
  · split
    · exact .bind (.close r) fun _ => .fail _
    · exact .pure _

/-- No command is started. -/
def Motion.unstarted : Motion where
  rel w w' := w'.commands = w.commands ∧ w'.shellReplies = w.shellReplies
  refl _ := ⟨rfl, rfl⟩
  trans h h' := ⟨h'.1.trans h.1, h'.2.trans h.2⟩
  journal _ _ := ⟨rfl, rfl⟩

/-- A hop that is judged to be the end has sent one request, and its response is still open. -/
theorem came_of_finish {c : Client} {h : Host} {o : Options} {destination : Path} {url : String}
    {r r' : Response} {w v v' : World} (hhop : (hop c h o destination url).perform w = (.ok r, v))
    (hjudge : (judge url r).perform v = (.ok (.finish r'), v')) : Came r' w v' := by
  obtain ⟨headers, proxy, -, hanswers, hnumber, hsent, -⟩ := hop_ok hhop
  obtain ⟨-, hsame, rfl, -, hexchanges⟩ := judge_ok hjudge
  have hunstarted : Motion.unstarted.rel w v := by
    have hmoves : (hop c h o destination url).Moves Motion.unstarted := by
      refine hop_moves (fun headers proxy _ u => ?_) fun u => ?_
      · rw [perform_send]
        split <;> exact ⟨rfl, rfl⟩
      · obtain ⟨-, hreplies, hcommands, -⟩ := (Files.discard_steady destination).idle u
        exact ⟨hcommands, hreplies⟩
    have hw := hmoves w
    rw [hhop] at hw
    exact hw
  have hidle := (judge_steady url r').idle v
  rw [hjudge] at hidle
  obtain ⟨-, hreplies, hcommands, -⟩ := hidle
  refine ⟨?_, hnumber, ⟨_, hexchanges.trans hsent⟩, hcommands.trans hunstarted.1,
    hreplies.trans hunstarted.2⟩
  rw [hanswers, hsame]

/-- **A chain of requests gives account.** -/
theorem follow_accounts (c : Client) (h : Host) (o : Options) (destination : Path) (first : String)
    (limit : Int) (left : Nat) (url : String) :
    (follow c h o destination first limit left url).Accounts True := by
  -- induction on the requests that are left: a redirect goes on with one less
  induction left generalizing url with
  | zero => exact .of_steady (.fail _)
  | succ left ih =>
      intro w₀ w hw
      refine .bind (hop_accounts c h o destination url w₀ w hw) ?_
      intro r v hhop hv
      refine .bind (.of_steady (judge_steady url r) hv) ?_
      intro next v' hjudge hv'
      cases next with
      | go next => exact ih next w₀ v' hv'
      | finish r' =>
          refine .bind (keep_accounts hw (came_of_finish hhop hjudge) hv' destination) ?_
          exact fun _ u _ hu => .of_steady (.log (by decide) _ _) hu

end Stream

/-! ### The shell -/

namespace Shell

theorem launch_accounts (executable : String) (destination : Path) (j : Script.Job) :
    (launch executable destination j).Accounts True := by
  refine .handle (execute_accounts _) ?_ ?_ (.throw trivial)
  · rintro ⟨code, stderr⟩
    refine .of_steady ?_
    simp only
    split
    · exact .bind (Files.discard_steady destination) fun _ => .fail _
    · exact .log (by decide) _ _
  · intro f hf
    simp only
    split
    · exact .after (Files.discard_steady destination) fun _ => .fail _
    · exact .throw hf

/-- **A download through the shell gives account.** -/
theorem download_accounts (h : Host) (executable url : String) (destination : Path) (o : Options) :
    (download h executable url destination o).Accounts True := by
  rw [download_eq]
  exact .after (Files.ensureDirectory_steady _) fun _ => .after (.log (by decide) _ _) fun _ =>
    .after (.give (o.headers.scopedTo_unbroken url o.trustedHost)) fun headers =>
      .after (Proxy.forRequest_steady h url o) fun proxy =>
        .after (.give (credentialFor_unbroken proxy)) fun credential =>
          launch_accounts executable destination _

end Shell

/-! ### The search -/

theorem Client.noteProxy_steady (proxy : Option String) : (noteProxy proxy).Steady := by
  cases proxy with
  | none => exact .pure _
  | some p => exact .bind (.give (Proxy.redacted_unbroken p)) fun _ => .log (by decide) _ _

theorem Client.askText_accounts (q : Request) : (askText q).Accounts True := by
  refine .bind (.handle (send_accounts q) (fun _ => .of_steady (.pure _)) ?_ (.throw trivial)) ?_
  · intro f hf
    simp only
    split
    · exact .fail _
    · exact .throw hf
  · intro response
    refine .of_steady ?_
    split
    · exact .bind (.fail _) fun _ => .pure _
    · exact .pure _

theorem Client.getText_accounts (c : Client) (h : Host) (url : String) (o : Options) :
    (c.getText h url o).Accounts True := by
  rw [getText_eq]
  exact .after (.log (by decide) _ _) fun _ =>
    .after (.give (o.headers.scopedTo_unbroken url o.trustedHost)) fun headers =>
      .after (Proxy.forRequest_steady h url o) fun proxy =>
        .after (noteProxy_steady proxy) fun _ => askText_accounts _

namespace Release

theorem readListing_steady (body : String) : (readListing body).Steady := by
  refine .bind (.give (ofText_unbroken body)) ?_
  intro listing
  split
  · split
    · exact .bind (.log (by decide) _ _) fun _ => .pure _
    · exact .pure _
  · exact .pure _

theorem pick_steady (listing : Listing) (name : String) : (pick listing name).Steady := by
  unfold pick
  split
  · exact .fail _
  · exact .fail _
  · split
    · exact .fail _
    · exact .bind (.log (by decide) _ _) fun _ => .pure _

/-- **The search for an asset gives account.** -/
theorem locate_accounts (c : Client) (h : Host) (q : Query) : (locate c h q).Accounts True :=
  .after (.log (by decide) _ _) fun _ => .bind (Client.getText_accounts c h _ _) fun body =>
    .after (readListing_steady body) fun listing => .of_steady (pick_steady listing _)

end Release

/-! ### Installations -/

namespace Installer

theorem download_accounts (i : Installer) (o : Order) : (i.download o).Accounts True := by
  refine .bind (Release.locate_accounts _ _ _) fun asset => .after (.log (by decide) _ _) fun _ =>
    .after (.log (by decide) _ _) fun _ => ?_
  cases i.transport with
  | stream h c limit => exact Stream.follow_accounts c h _ _ _ _ _ _
  | shell h executable => exact Shell.download_accounts h executable _ _ _

/-- The path of an asset can be given to the system. -/
def Nameable (i : Installer) (o : Order) : Prop :=
  hasNul (i.assetPath o.version o.target) = false

/-- **An interrupt of a download is passed on if the path of the asset can be given to the
system**: before it goes on, the asset is discarded. -/
theorem renew_accounts (i : Installer) (o : Order) : (i.renew o).Accounts (i.Nameable o) := by
  refine .handle (i.download_accounts o) (fun _ => .of_steady (.pure _)) ?_ ?_
  · exact fun f hf => .after (.log (by decide) _ _) fun _ => .after (Files.discard_steady _)
      fun _ => .throw hf
  · refine .after (.log (by decide) _ _) (fun _ => ⟨_, rfl⟩) fun _ => ?_
    cases hnul : hasNul (i.assetPath o.version o.target) with
    | false =>
        exact .after (Files.discard_steady _) (fun _ => Files.discard_ok hnul)
          fun _ => .throw hnul
    | true =>
        refine .replaced (Files.discard_steady _) (fun w => ⟨_, Files.discard_nul hnul w⟩) ?_
        intro hnameable
        rw [Nameable, hnul] at hnameable
        cases hnameable

theorem reuse_steady (i : Installer) (o : Order) : (i.reuse o).Steady := by
  unfold reuse
  split
  · exact .pure _
  · exact .look fun d => d.exists?_unbroken _

/-- **An asset that is obtained** gives account. -/
theorem obtain_accounts (i : Installer) (o : Order) : (i.obtain o).Accounts (i.Nameable o) := by
  rw [obtain_eq]
  refine .after (Files.ensureDirectory_steady _) fun _ => .after (i.reuse_steady o) ?_
  intro found
  split
  · exact .of_steady (.bind (.log (by decide) _ _) fun _ => .pure _)
  · exact i.renew_accounts o

theorem finish_steady (i : Installer) (o : Order) (asset : Path) : (i.finish o asset).Steady := by
  refine .bind (.log (by decide) _ _) fun _ => .handle (place_steady asset o.destination)
    (fun binary => .bind (.log (by decide) _ _) fun _ => .pure _) ?_
  intro f hf
  simp only [hf]
  exact .bind (.log (by decide) _ _) fun _ => .bind (Files.discard_steady _) fun _ => .throw hf

theorem check_unbroken (o : Order) : Unbroken (o.check.mapError Failure.problem) :=
  .mapError _ fun _ => rfl

/-- **An installation gives account**: it ends with an interrupt exactly if one was met and the path
of its asset can be given to the system. -/
theorem install_accounts (i : Installer) (o : Order) : (i.install o).Accounts (i.Nameable o) := by
  rw [install_eq]
  exact .after (.give (check_unbroken o)) fun _ => .after (Files.ensureDirectory_steady _) fun _ =>
    .bind (i.obtain_accounts o) fun asset => .of_steady (i.finish_steady o asset)

end Installer

end ReleaseFetch
