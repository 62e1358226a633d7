/-
**A credential changes nothing but itself.**

Two installations whose orders differ in the credential only, and two runs of the program in
environments that do, end in the same way, leave the same files, journal and output, and send and
start the same, up to the value of the credential where the trusted host is addressed.  Everything
else that is sent is the same in both runs and has no credential in it.

Main definitions:

* `ReleaseFetch.Options.Twin` — options that differ in credentials;
* `ReleaseFetch.CommandLine.trusted?` — the host that a command line trusts;
* `ReleaseFetch.Indistinguishable` — how two runs may differ.

Main results:

* `ReleaseFetch.Headers.scopedTo_twin` — scoping keeps a difference in credentials to the trusted
  host;
* `ReleaseFetch.Transport.fetch_credentials`, `ReleaseFetch.Client.getText_credentials` — downloads
  and descriptions;
* `ReleaseFetch.Installer.install_alike` — installations;
* `ReleaseFetch.CommandLine.performInstall_alike` — the command that installs;
* `ReleaseFetch.credential_noninterference` — installations and command lines.
-/

import ReleaseFetch.Proofs.Credential.Coupling
import ReleaseFetch.Proofs.Credential.Environment
import ReleaseFetch.Proofs.Install.Coupled

set_option autoImplicit false

namespace ReleaseFetch

open Session

/-! ### Headers -/

namespace Headers

variable {hs hs' : Headers}

/-- Headers that differ in credentials look the same in the journal. -/
theorem Twin.redacted (h : Twin hs hs') : hs.redacted = hs'.redacted := by
  refine List.forall₂_eq_eq_eq ▸ List.rel_map (P := (· = ·)) (fun x y hxy => ?_) h
  obtain ⟨n, v⟩ := x
  obtain ⟨n', v'⟩ := y
  obtain ⟨rfl, hv⟩ := hxy
  cases hn : isCredential n with
  | true => simp [hn]
  | false =>
      obtain rfl : v = v' := hv hn
      rfl

/-- Headers without credentials have nothing to differ in. -/
theorem Twin.eq_of_none (h : Twin hs hs') (hnone : ¬hs.HasCredential) : hs = hs' := by
  induction h with
  | nil => rfl
  | @cons x y xs ys hxy hrest ih =>
      have hx : isCredential x.1 = false := by
        rw [← Bool.not_eq_true]
        exact fun hx => hnone ⟨x, List.mem_cons_self, hx⟩
      have hxs : ¬Headers.HasCredential xs := fun ⟨z, hz, hcredential⟩ =>
        hnone ⟨z, List.mem_cons_of_mem _ hz, hcredential⟩
      rw [ih hxs, Prod.ext hxy.1 (hxy.2 hx)]

/-- Choosing headers by name keeps them alike. -/
theorem Twin.filter (h : Twin hs hs') (keep : String → Bool) :
    Twin (hs.filter fun x => keep x.1) (hs'.filter fun x => keep x.1) :=
  List.rel_filter (fun x y hxy => by simp only [hxy.1]) h

theorem Twin.withoutCredentials (h : Twin hs hs') :
    hs.withoutCredentials = hs'.withoutCredentials :=
  (h.filter fun name => !isCredential name).eq_of_none hs.not_hasCredential_withoutCredentials

/-- A credential that is set differently makes headers that differ in it. -/
theorem twin_set {name : String} (hname : isCredential name = true) (v v' : String)
    (hs : Headers) : Twin (Fields.set name v hs) (Fields.set name v' hs) := by
  induction hs with
  | nil => exact .cons ⟨rfl, fun hn => by simp [hname] at hn⟩ .nil
  | cons x rest ih =>
      obtain ⟨n, u⟩ := x
      unfold Fields.set
      split
      · next hn =>
        subst hn
        exact .cons ⟨rfl, fun hn => by simp [hname] at hn⟩ (Twin.refl rest)
      · exact .cons ⟨rfl, fun _ => rfl⟩ ih

/-- **Scoping keeps a difference in credentials to the trusted host.** -/
theorem scopedTo_twin (h : Twin hs hs') (url trusted : String) :
    (∃ f, hs.scopedTo url trusted = .error f ∧ hs'.scopedTo url trusted = .error f) ∨
      ∃ gs gs', hs.scopedTo url trusted = .ok gs ∧ hs'.scopedTo url trusted = .ok gs' ∧
        Twin gs gs' ∧ Paired trusted url gs gs' := by
  unfold scopedTo Paired
  -- both runs read the same host from the URL, so they keep or drop credentials alike
  cases hhost : Url.hostOf url with
  | error f => exact .inl ⟨f, rfl, rfl⟩
  | ok host =>
      refine .inr ⟨_, _, rfl, rfl, ?_⟩
      split
      · next heq => exact ⟨h, .inr ⟨by rw [eq_of_beq heq], h⟩⟩
      · rw [h.withoutCredentials]
        exact ⟨Twin.refl _, .inl rfl⟩

end Headers

/-- Options that differ in credentials among their headers only. -/
structure Options.Twin (o o' : Options) : Prop where
  headers : o.headers.Twin o'.headers
  proxy : o.proxy = o'.proxy
  trustedHost : o.trustedHost = o'.trustedHost
  timeout : o.timeout = o'.timeout

namespace Session.Coupled

variable {α : Type} {trusted : String}

/-- Headers are scoped before anything is done with them. -/
theorem give_scoped {hs hs' : Headers} (h : hs.Twin hs') (url : String)
    {k l : Headers → Session α}
    (hk : ∀ gs gs', gs.Twin gs' → Headers.Paired trusted url gs gs' →
      Coupled (.credentials trusted) (k gs) (l gs')) :
    Coupled (.credentials trusted) (Session.give (hs.scopedTo url trusted) >>= k)
      (Session.give (hs'.scopedTo url trusted) >>= l) := by
  rcases Headers.scopedTo_twin h url trusted with
    ⟨f, hf, hf'⟩ | ⟨gs, gs', hgs, hgs', htwin, hpaired⟩
  · rw [hf, hf']
    exact .stop f
  · rw [hgs, hgs']
    exact hk gs gs' htwin hpaired

end Session.Coupled

/-! ### Streams -/

section Steps

variable {trusted : String}

/-- The requests for a URL with options that differ in credentials. -/
theorem Client.request_twin (c : Client) (url : String) {gs gs' : Headers}
    (h : Headers.Paired trusted url gs gs') (proxy : Option String) {o o' : Options}
    (ho : o.Twin o') (streamed : Bool) :
    (c.request url gs proxy o streamed).Twin trusted (c.request url gs' proxy o' streamed) :=
  ⟨rfl, h, rfl, ho.timeout, rfl, rfl, rfl⟩

theorem Proxy.forRequest_twin (h : Host) (url : String) {o o' : Options} (ho : o.Twin o') :
    forRequest h url o = forRequest h url o' := by
  rw [forRequest, forRequest, ho.proxy]

/-- Hops whose options differ in credentials send requests that do. -/
theorem Stream.hop_credentials (c : Client) (h : Host) {o o' : Options} (ho : o.Twin o')
    (destination : Path) (url : String) :
    Coupled (.credentials o.trustedHost) (hop c h o destination url)
      (hop c h o' destination url) := by
  rw [hop_eq, hop_eq, ← ho.trustedHost]
  refine .give_scoped ho.headers url ?_
  intro gs gs' htwin hpaired
  rw [Proxy.forRequest_twin h url ho, htwin.redacted]
  refine .bind (.of_local (Proxy.forRequest_quiet h url o').isLocal) fun proxy =>
    .bind (.give _) fun shown => ?_
  have hrequest : (Coupling.credentials o.trustedHost).request (c.request url gs proxy o true)
      (c.request url gs' proxy o' true) := c.request_twin url hpaired proxy ho true
  exact ask_coupled hrequest rfl destination _

/-! ### The shell -/

namespace Shell

/-- The name of a program is no credential. -/
theorem agentOf_twin {gs gs' : Headers} (h : gs.Twin gs') :
    Script.agentOf gs = Script.agentOf gs' := by
  have hnone : ¬Headers.HasCredential (gs.filter fun x => Headers.isUserAgent x.1) := by
    rintro ⟨x, hx, hcredential⟩
    have hagent := (List.mem_filter.1 hx).2
    rw [Headers.isUserAgent, beq_iff_eq] at hagent
    rw [Headers.isCredential, beq_iff_eq, hagent] at hcredential
    revert hcredential
    decide
  rw [Script.agentOf, Script.agentOf, (h.filter Headers.isUserAgent).eq_of_none hnone]

theorem command_twin {url : String} {gs gs' : Headers} (htwin : gs.Twin gs')
    (hpaired : Headers.Paired trusted url gs gs') (executable : String) (destination : Path)
    (proxy : Option String) (credential : Option Script.Credential) :
    Twin trusted (command executable (jobOf url destination gs proxy credential))
      (command executable (jobOf url destination gs' proxy credential)) := by
  -- the headers are the same, or the URL names the trusted host
  rcases hpaired with rfl | ⟨hhost, -⟩
  · exact .inl rfl
  · refine .inr ⟨executable, _, Script.tableHeaders gs', rfl, ?_, hhost,
      htwin.filter fun name => !Headers.isUserAgent name⟩
    rw [jobOf, jobOf, agentOf_twin htwin]

/-- Scripts whose options differ in credentials do the same. -/
theorem download_credentials (h : Host) (executable url : String) (destination : Path)
    {o o' : Options} (ho : o.Twin o') :
    Coupled (.credentials o.trustedHost) (download h executable url destination o)
      (download h executable url destination o') := by
  rw [download_eq, download_eq, ← ho.trustedHost]
  refine .bind (.of_local (Files.ensureDirectory_local _)) fun _ => .bind (.log _ _ _) fun _ =>
    .give_scoped ho.headers url ?_
  intro gs gs' htwin hpaired
  rw [Proxy.forRequest_twin h url ho]
  exact .bind (.of_local (Proxy.forRequest_quiet h url o').isLocal) fun proxy =>
    .bind (.give _) fun credential =>
      launch_coupled (command_twin htwin hpaired executable destination proxy credential) destination

end Shell

/-! ### Installations -/

/-- **Downloads whose options differ in credentials take the same way.** -/
theorem Transport.fetch_credentials (t : Transport) (url shownAs : String) (destination : Path)
    {o o' : Options} (ho : o.Twin o') :
    Coupled (.credentials o.trustedHost) (t.fetch url shownAs destination o)
      (t.fetch url shownAs destination o') := by
  refine .bind (.log _ _ _) fun _ => .bind (.log _ _ _) ?_
  intro _
  cases t with
  | stream h c limit =>
      exact Stream.follow_coupled (Stream.hop_credentials c h ho destination) url limit _ url
  | shell h executable => exact Shell.download_credentials h executable url destination ho

theorem Client.getText_credentials (c : Client) (h : Host) (url : String) {o o' : Options}
    (ho : o.Twin o') :
    Coupled (.credentials o.trustedHost) (c.getText h url o) (c.getText h url o') := by
  rw [getText_eq, getText_eq, ← ho.trustedHost]
  refine .bind (.log _ _ _) fun _ => .give_scoped ho.headers url ?_
  intro gs gs' _ hpaired
  rw [Proxy.forRequest_twin h url ho]
  exact .bind (.of_local (Proxy.forRequest_quiet h url o').isLocal) fun proxy =>
    .bind (.of_local (noteProxy_quiet proxy).isLocal) fun _ =>
      askText_coupled (c.request_twin url hpaired proxy ho false) rfl

/-- Options with a credential each differ in it only. -/
theorem Release.withToken_twin (o : Options) {t t' : String} (ht : t ≠ "") (ht' : t' ≠ "") :
    (withToken o (some t)).Twin (withToken o (some t')) := by
  have hsome (u : String) (hu : u ≠ "") :
      withToken o (some u) = o.withHeader "authorization" (credential u) := by
    simp [withToken, Option.filter, hu]
  rw [hsome t ht, hsome t' ht']
  exact ⟨Headers.twin_set (by decide) _ _ _, rfl, rfl, rfl⟩

namespace Installer

variable (i : Installer) (o : Order) {t t' : String}

theorem download_credentials (ht : t ≠ "") (ht' : t' ≠ "") :
    Coupled (.credentials i.config.apiHost) (i.download { o with token := some t })
      (i.download { o with token := some t' }) := by
  refine .bind (Release.locate_coupled rfl rfl ?_) ?_
  · have h := i.client.getText_credentials i.host
      (Release.url i.config.apiHost i.config.repo o.version)
      (Release.withToken_twin ⟨[("user-agent", i.config.userAgent)], none, i.config.apiHost,
        i.config.timeout⟩ ht ht')
    rwa [Release.withToken_trustedHost] at h
  · intro asset
    have h := i.transport.fetch_credentials asset.url (i.assetPath o.version o.target).text
      (i.assetPath o.version o.target) (Release.withToken_twin (i.assetOptions ⟨o.version, o.target,
        o.destination, o.force, none⟩) ht ht')
    rwa [Release.withToken_trustedHost] at h

/-- **Installations whose orders differ in the credential do the same.** -/
theorem install_alike (ht : t ≠ "") (ht' : t' ≠ "") :
    Alike i.config.apiHost (i.install { o with token := some t })
      (i.install { o with token := some t' }) :=
  alike_iff_coupled.2
    ((Beside.refl i).install_coupled (some t') (i.download_credentials o ht ht'))

end Installer

/-! ### The command that installs -/

namespace CommandLine

variable {h h' : Host}

/-- What the options ask for, with a credential. -/
def chosenOrder (c : Config) (o : InstallOptions) (target : String) (token : Option String) :
    Order :=
  ⟨o.release.nonEmpty?.getD c.version, target, chosenDirectory c o.binDir, o.force, token⟩

/-- Notes a target that is not known. -/
def noteTarget (target : String) : Session Unit := do
  if !supportedTargets.contains target then
    log .warning .installCommand s!"{target} is not a known release target"

theorem noteTarget_quiet (target : String) : (noteTarget target).Quiet := by
  unfold noteTarget
  split
  · exact .log _ _ _
  · exact .pure _

/-- A target is chosen and noted, and an order is installed. -/
theorem installChosen_eq (s : Site) (h : Host) (c : Config) (o : InstallOptions) :
    installChosen s h c o = (do
      let target ← give (chosenTarget h o.target)
      noteTarget target
      let _ ← (Installer.ofConfig s c h).install (chosenOrder c o target h.token?)) := by
  unfold installChosen noteTarget chosenOrder
  congr 1
  funext target
  simp only
  split <;> rfl

theorem installChosen_alike (hh : h.SameButToken h') {t t' : String} (ht : h.token? = some t)
    (ht' : h'.token? = some t') (s : Site) (c : Config) (o : InstallOptions) :
    Alike c.apiHost (installChosen s h c o) (installChosen s h' c o) := by
  have hpresent : t ≠ "" := by simpa using (Option.filter_eq_some_iff.1 ht).2
  have hpresent' : t' ≠ "" := by simpa using (Option.filter_eq_some_iff.1 ht').2
  rw [installChosen_eq, installChosen_eq, chosenTarget_congr hh, ht, ht']
  refine alike_iff_coupled.2 <| .bind (.give _) fun target =>
    .bind (.of_local (noteTarget_quiet target).isLocal) fun _ => .bind ?_ fun _ => .pure _
  rw [Installer.install_congr hh, ← alike_iff_coupled]
  exact (Installer.ofConfig s c h').install_alike (chosenOrder c o target none) hpresent hpresent'

theorem installChosen_scoped (s : Site) (h : Host) (c : Config) (o : InstallOptions) :
    (installChosen s h c o).Moves (Motion.scoped c.apiHost) := by
  rw [installChosen_eq]
  exact .bind (.give _) fun target => .bind (noteTarget_quiet target).moves fun _ =>
    .bind ((Installer.ofConfig s c h).install_scoped _) fun _ => .pure _

/-- Notes that caches are ignored. -/
def noteForce (force : Bool) : Session Unit := do
  if force then log .info .installCommand "--force, ignoring caches"

theorem noteForce_quiet (force : Bool) : (noteForce force).Quiet := by
  cases force with
  | true => exact .log _ _ _
  | false => exact .pure _

/-- The code of an installation, with a report of its problem. -/
def report (verbose : Bool) (c : Config) : Except Failure Unit → Session Nat
  | .ok () => return 0
  | .error (.problem p) => do
    log .error .installCommand s!"Downloading {c.toolName} failed: {p.message}"
    if verbose then logDetails .installCommand "Details"
    return 1
  | .error f => throw f

theorem report_quiet (verbose : Bool) (c : Config) (r : Except Failure Unit) :
    (report verbose c r).Quiet := by
  rcases r with f | u
  · unfold report
    split
    · exact .pure _
    · refine .bind (.log _ _ _) ?_
      intro _
      have hdetails : (logDetails .installCommand "Details").Quiet := ⟨_, _, fun _ => rfl⟩
      split
      · exact .bind hdetails fun _ => .pure _
      · exact .pure _
    · exact .throw _
  · exact .pure _

/-- A configuration is loaded, an order is installed, and a problem is reported. -/
theorem performInstall_eq (s : Site) (h : Host) (general : GeneralOptions) (o : InstallOptions) :
    performInstall s h general o = (do
      let c ← context s h general
      noteForce o.force
      let result ← attempt (installChosen s (withArchitecture h o.arch) c o)
      report general.verbose c result) := by
  simp only [performInstall, noteForce]
  congr 1
  funext c
  split <;> rfl

end CommandLine

end Steps

/-! ### Two runs -/

/-- Two runs from one world end in the same way, in worlds that differ at most in credentials that
were sent to the trusted host, and all that either of them has sent and started is scoped. -/
structure Indistinguishable {α : Type} (trusted : String) (start : World) (x y : α × World) :
    Prop where
  result : x.1 = y.1
  world : x.2.Twin trusted y.2
  left : (Motion.scoped trusted).rel start x.2
  right : (Motion.scoped trusted).rel start y.2

namespace Indistinguishable

variable {α : Type} {trusted : String} {x y : Session α}

theorem of_alike (h : Alike trusted x y) (hx : x.Moves (Motion.scoped trusted))
    (hy : y.Moves (Motion.scoped trusted)) (w : World) :
    Indistinguishable trusted w (x.perform w) (y.perform w) :=
  ⟨(h w w (.refl w)).1, (h w w (.refl w)).2, hx w, hy w⟩

theorem of_local (hx : x.Local) (w : World) :
    Indistinguishable trusted w (x.perform w) (x.perform w) :=
  of_alike (alike_iff_coupled.2 (.of_local hx)) hx.scoped hx.scoped w

/-- What was sent before is scoped as well. -/
theorem after {start w : World} {p q : α × World} (h : Indistinguishable trusted w p q)
    (hw : (Motion.scoped trusted).rel start w) : Indistinguishable trusted start p q :=
  ⟨h.result, h.world, (Motion.scoped trusted).trans hw h.left,
    (Motion.scoped trusted).trans hw h.right⟩

end Indistinguishable

/-- Installations whose orders differ in the credential are indistinguishable. -/
theorem Installer.install_indistinguishable (i : Installer) (o : Order) {t t' : String}
    (ht : t ≠ "") (ht' : t' ≠ "") (w : World) :
    Indistinguishable i.config.apiHost w ((i.install { o with token := some t }).perform w)
      ((i.install { o with token := some t' }).perform w) :=
  .of_alike (i.install_alike o ht ht') (i.install_scoped _) (i.install_scoped _) w

namespace CommandLine

variable {h h' : Host}

/-- The host that a command line trusts, which its configuration names. -/
def trusted? (s : Site) (h : Host) (words : List String) (w : World) : Option String :=
  match Arguments.parse words with
  | .error _ => none
  | .ok a =>
    match ((context s h a.general).perform { w with journal := [], printed := "" }).1 with
    | .error _ => none
    | .ok c => some c.apiHost

theorem performInstall_indistinguishable (hh : h.SameButToken h') (ht : h.token?.isSome)
    (ht' : h'.token?.isSome) (s : Site) (general : GeneralOptions) (o : InstallOptions) (w : World)
    {trusted : String}
    (hc : ∀ c, ((context s h general).perform w).1 = .ok c → c.apiHost = trusted) :
    Indistinguishable trusted w ((performInstall s h general o).perform w)
      ((performInstall s h' general o).perform w) := by
  obtain ⟨t, ht⟩ := Option.isSome_iff_exists.1 ht
  obtain ⟨t', ht'⟩ := Option.isSome_iff_exists.1 ht'
  rw [← token?_withArchitecture h o.arch] at ht
  rw [← token?_withArchitecture h' o.arch] at ht'
  have hloaded : (Motion.scoped trusted).rel w ((context s h general).perform w).2 :=
    (context_local s h general).scoped w
  rw [performInstall_eq, performInstall_eq, ← context_congr hh, perform_bind, perform_bind]
  rcases hcontext : (context s h general).perform w with ⟨r, v⟩
  rw [hcontext] at hc hloaded
  cases r with
  | error f => exact ⟨rfl, .refl v, hloaded, hloaded⟩
  | ok c =>
      -- from here on the configuration is known, and with it the host that is trusted
      obtain rfl := hc c rfl
      have hscoped (g : Host) := installChosen_scoped s (withArchitecture g o.arch) c o
      refine .after (.of_alike ?_ ?_ ?_ v) hloaded
      · have hchosen := installChosen_alike (withArchitecture_congr hh o.arch) ht ht' s c o
        exact alike_iff_coupled.2 <| .bind (.of_local (noteForce_quiet o.force).isLocal) fun _ =>
          .bind (.attempt (alike_iff_coupled.1 hchosen)) fun result =>
            .of_local (report_quiet general.verbose c result).isLocal
      · exact .bind (noteForce_quiet o.force).moves fun _ => .bind (.attempt (hscoped h))
          fun result => (report_quiet general.verbose c result).moves
      · exact .bind (noteForce_quiet o.force).moves fun _ => .bind (.attempt (hscoped h'))
          fun result => (report_quiet general.verbose c result).moves

/-- A command that is performed in environments that differ in the credential. -/
theorem perform_indistinguishable (hh : h.SameButToken h') (ht : h.token?.isSome)
    (ht' : h'.token?.isSome) (s : Site) (general : GeneralOptions) (command : Command) (w : World)
    {trusted : String}
    (hc : ∀ c, ((context s h general).perform w).1 = .ok c → c.apiHost = trusted) :
    Indistinguishable trusted w ((perform s h general command).perform w)
      ((perform s h' general command).perform w) := by
  have hoffline (hinstalls : command.installs = false) :
      Indistinguishable trusted w ((perform s h general command).perform w)
        ((perform s h' general command).perform w) := by
    rw [← perform_congr hh s general hinstalls]
    exact .of_local (perform_local s h general hinstalls) w
  cases command with
  | install o => exact performInstall_indistinguishable hh ht ht' s general o w hc
  | target o => exact hoffline rfl
  | path => exact hoffline rfl
  | clean => exact hoffline rfl

/-- How a command line ends whose command ended like this. -/
def closed (general : GeneralOptions) (x : Except Failure Nat × World) : Outcome × World :=
  let closing := Closing.ofResult general.verbose x.1
  let journal := x.2.journal ++ closing.records
  let err := general.verbosity.render journal ++ (if closing.details then detailsLine else "")
  (⟨closing.code, false, x.2.printed, err⟩, { x.2 with journal := journal })

theorem runCommand_eq (s : Site) (h : Host) (general : GeneralOptions) (c : Command) (w : World) :
    runCommand s h general c w =
      closed general ((perform s h general c).perform { w with journal := [], printed := "" }) :=
  rfl

/-- What is reported of a command does not tell the runs apart. -/
theorem closed_indistinguishable {trusted : String} {start : World}
    {x y : Except Failure Nat × World} (h : Indistinguishable trusted start x y)
    (general : GeneralOptions) :
    Indistinguishable trusted start (closed general x) (closed general y) := by
  obtain ⟨r, v⟩ := x
  obtain ⟨r', v'⟩ := y
  obtain ⟨hresult, hworld, hleft, hright⟩ := h
  obtain rfl : r = r' := hresult
  have hjournal : v.journal = v'.journal := hworld.journal
  have hprinted : v.printed = v'.printed := hworld.printed
  refine ⟨?_, ⟨hworld.disk, hworld.answers, hworld.shellReplies, hworld.exchanges,
    hworld.commands, ?_, hprinted⟩, hleft, hright⟩
  · simp only [closed, hjournal, hprinted]
  · simp only [closed, hjournal]

/-- A command line that is run in environments that differ in the credential. -/
theorem run_indistinguishable (hh : h.SameButToken h') (ht : h.token?.isSome)
    (ht' : h'.token?.isSome) (s : Site) (words : List String) (w : World) {trusted : String}
    (hc : ∀ host ∈ trusted? s h words w, host = trusted) :
    Indistinguishable trusted w (run s h words w) (run s h' words w) := by
  unfold run
  cases hwords : Arguments.parse words with
  | error e => exact ⟨rfl, .refl w, (Motion.scoped trusted).refl w, (Motion.scoped trusted).refl w⟩
  | ok a =>
      simp only
      cases hcommand : a.command with
      | none => exact ⟨rfl, .refl w, (Motion.scoped trusted).refl w, (Motion.scoped trusted).refl w⟩
      | some command =>
          simp only [runCommand_eq]
          -- a command starts with an empty journal; what was sent before is the same in both runs
          have hperform := perform_indistinguishable hh ht ht' s a.general command
            { w with journal := [], printed := "" } fun c hloaded =>
              hc c.apiHost (by simp only [trusted?, hwords, hloaded, Option.mem_some_iff])
          exact (closed_indistinguishable hperform a.general).after ((Motion.scoped trusted).refl w)

end CommandLine

/-- **A credential changes nothing but itself.**  Installations whose orders carry different
credentials are indistinguishable, and so are two runs of a command line in environments that hold
different ones: the trusted host is that of the configuration. -/
theorem credential_noninterference :
    (∀ (i : Installer) (o : Order) (t t' : String) (w : World), t ≠ "" → t' ≠ "" →
      Indistinguishable i.config.apiHost w ((i.install { o with token := some t }).perform w)
        ((i.install { o with token := some t' }).perform w)) ∧
    ∀ (s : Site) (h h' : Host) (words : List String) (w : World) (trusted : String),
      h.SameButToken h' → h.token?.isSome → h'.token?.isSome →
      (∀ host ∈ CommandLine.trusted? s h words w, host = trusted) →
      Indistinguishable trusted w (CommandLine.run s h words w) (CommandLine.run s h' words w) :=
  ⟨fun i o _ _ w ht ht' => i.install_indistinguishable o ht ht' w,
    fun s _ _ words w _ hh ht ht' hc => CommandLine.run_indistinguishable hh ht ht' s words w hc⟩

/-- A host whose environment holds a credential. -/
def Host.carrying (token : String) : Host := ⟨"linux", "x86_64", [(tokenVariable, token)]⟩

theorem Host.sameButToken_carrying (t t' : String) : (carrying t).SameButToken (carrying t') := by
  refine ⟨rfl, rfl, fun name hname => ?_⟩
  have hb : (name == tokenVariable) = false := by simpa using hname
  simp [carrying, Host.get?, List.lookup_cons, hb]

/-- An installation whose asset comes from a host that is not trusted, and a command line. -/
theorem credential_noninterference_redirected :
    let w := World.fresh ⟨[], []⟩ Installer.firstAnswers
    let installed := fun t =>
      ((Installer.ofTool ⟨.here, ["cache"]⟩).install
        { Installer.firstOrder with token := some t }).perform w
    let ran := fun t =>
      CommandLine.run ⟨fun _ => none, ⟨.here, ["tmp"]⟩, ⟨.here, ["package"]⟩⟩ (.carrying t)
        ["install"] w
    (Indistinguishable defaultTrustedHost w (installed "a") (installed "b") ∧
      (installed "a").1 = .ok ⟨.here, ["out", "tool"]⟩ ∧
      (installed "a").2.exchanges ≠ (installed "b").2.exchanges) ∧
    Indistinguishable defaultTrustedHost w (ran "a") (ran "b") := by
  intro w installed ran
  have hrun (t : String) : ((Installer.ofTool ⟨.here, ["cache"]⟩).install
      { Installer.firstOrder with token := some t }).perform w = installed t := rfl
  have hsame := credential_noninterference.1 (Installer.ofTool ⟨.here, ["cache"]⟩)
    Installer.firstOrder "a" "b" w (by decide) (by decide)
  have hseen : (((Installer.ofTool ⟨.here, ["cache"]⟩).install
        { Installer.firstOrder with token := some "a" }).perform w).1 =
          .ok ⟨.here, ["out", "tool"]⟩ ∧
      (((Installer.ofTool ⟨.here, ["cache"]⟩).install
        { Installer.firstOrder with token := some "a" }).perform w).2.exchanges ≠
      (((Installer.ofTool ⟨.here, ["cache"]⟩).install
        { Installer.firstOrder with token := some "b" }).perform w).2.exchanges := by
    decide +kernel
  -- both runs in the words of the statement, so that no run is compared with itself
  rw [hrun, hrun] at hsame hseen
  exact ⟨⟨hsame, hseen⟩, credential_noninterference.2 _ _ _ _ w defaultTrustedHost
    (Host.sameButToken_carrying "a" "b") (by decide) (by decide) (by decide +kernel)⟩

end ReleaseFetch
