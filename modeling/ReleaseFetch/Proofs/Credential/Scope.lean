/-
**Who is sent a credential.**

Headers are scoped for every request anew, and for every script of the shell: a credential is among
them only if the URL names the trusted host.  So it holds of all that a run sends and starts,
whatever its redirects are and however it ends.

Main definitions:

* `ReleaseFetch.Headers.Scoped` — headers that a URL may see;
* `ReleaseFetch.Request.Scoped`, `ReleaseFetch.Shell.Scoped` — requests and commands that keep to
  it;
* `ReleaseFetch.Motion.scoped` — all that is sent and started keeps to it.

Main results:

* `ReleaseFetch.Headers.scoped_of_scopedTo` — headers are scoped;
* `ReleaseFetch.Stream.download_scoped`, `ReleaseFetch.Shell.download_scoped` — both ways to
  download;
* `ReleaseFetch.Installer.install_scoped` — an installation.
-/

import ReleaseFetch.Proofs.Install.Placement

set_option autoImplicit false

namespace ReleaseFetch

open Session

/-! ### Headers -/

namespace Headers

/-- The headers hold a credential. -/
def HasCredential (hs : Headers) : Prop := ∃ x ∈ hs, isCredential x.1 = true

/-- The headers hold a credential only if the URL names the trusted host. -/
def Scoped (trusted url : String) (hs : Headers) : Prop :=
  hs.HasCredential → Url.hostOf url = .ok (Text.lower trusted)

theorem not_hasCredential_withoutCredentials (hs : Headers) :
    ¬hs.withoutCredentials.HasCredential := by
  rintro ⟨x, hx, hcredential⟩
  rw [withoutCredentials, List.mem_filter] at hx
  simp [hcredential] at hx

/-- **Headers that may be sent to a URL are scoped.** -/
theorem scoped_of_scopedTo {hs hs' : Headers} {url trusted : String}
    (h : hs.scopedTo url trusted = .ok hs') : hs'.Scoped trusted url := by
  intro hcredential
  unfold scopedTo at h
  split at h
  · cases h
  · next host hhost =>
    obtain rfl := Except.ok.inj h
    split at hcredential
    · next heq =>
      rw [hhost, eq_of_beq heq]
    · exact absurd hcredential hs.not_hasCredential_withoutCredentials

theorem Scoped.filter {hs : Headers} {trusted url : String} (h : hs.Scoped trusted url)
    (keep : String × String → Bool) : Scoped trusted url (hs.filter keep) := by
  rintro ⟨x, hx, hcredential⟩
  exact h ⟨x, (List.mem_filter.1 hx).1, hcredential⟩

end Headers

/-- A request that carries a credential only to the trusted host. -/
def Request.Scoped (trusted : String) (q : Request) : Prop := q.headers.Scoped trusted q.url

/-- A command whose script has a credential only for the trusted host. -/
def Shell.Scoped (trusted : String) (command : List String) : Prop :=
  ∃ executable j, command = Shell.command executable j ∧ j.headers.Scoped trusted j.url

/-! ### All that is sent and started -/

/-- All that is sent and started is scoped. -/
def Motion.scoped (trusted : String) : Motion where
  rel w w' :=
    (∃ qs, w'.exchanges.map (·.request) = w.exchanges.map (·.request) ++ qs ∧
      ∀ q ∈ qs, q.Scoped trusted) ∧
    ∃ cs, w'.commands = w.commands ++ cs ∧ ∀ c ∈ cs, Shell.Scoped trusted c
  refl w := ⟨⟨[], by simp, by simp⟩, [], by simp, by simp⟩
  trans := by
    rintro u v w ⟨⟨qs, hqs, hq⟩, cs, hcs, hc⟩ ⟨⟨qs', hqs', hq'⟩, cs', hcs', hc'⟩
    refine ⟨⟨qs ++ qs', by rw [hqs', hqs, List.append_assoc], ?_⟩, cs ++ cs',
      by rw [hcs', hcs, List.append_assoc], ?_⟩
    · intro q hmem
      exact (List.mem_append.1 hmem).elim (hq q) (hq' q)
    · intro c hmem
      exact (List.mem_append.1 hmem).elim (hc c) (hc' c)
  journal _ _ := ⟨⟨[], by simp, by simp⟩, [], by simp, by simp⟩

namespace Session

variable {α : Type} {trusted : String}

/-- A local step sends and starts nothing. -/
theorem Local.scoped {x : Session α} (hx : Local x) : x.Moves (Motion.scoped trusted) := by
  intro w
  have h := hx.traffic w
  have hexchanges : (x.perform w).2.exchanges = w.exchanges := congrArg Traffic.exchanges h
  have hcommands : (x.perform w).2.commands = w.commands := congrArg Traffic.commands h
  exact ⟨⟨[], by simp [hexchanges], by simp⟩, [], by simp [hcommands], by simp⟩

theorem send_scoped {q : Request} (hq : q.Scoped trusted) :
    (send q).Moves (Motion.scoped trusted) := by
  intro w
  rw [perform_send]
  have hsent : ∀ (a : Bool) (rest : List Answer), (Motion.scoped trusted).rel w { w with
      answers := rest, exchanges := w.exchanges ++ [Exchange.opened q a] } := by
    intro a rest
    refine ⟨⟨[q], by simp [Exchange.opened], ?_⟩, [], by simp, by simp⟩
    simpa using hq
  split
  · exact hsent false w.answers
  · exact hsent false _
  · exact hsent true _

theorem close_scoped (r : Response) : (close r).Moves (Motion.scoped trusted) := by
  intro w
  refine ⟨⟨[], ?_, by simp⟩, [], by simp [perform_close], by simp⟩
  rw [perform_close, List.append_nil]
  exact map_modify_of_eq _ _ fun _ => rfl

theorem startReading_scoped (r : Response) (size : Nat) :
    (startReading r size).Moves (Motion.scoped trusted) := by
  intro w
  refine ⟨⟨[], ?_, by simp⟩, [], by simp [perform_startReading], by simp⟩
  rw [perform_startReading, List.append_nil]
  exact map_modify_of_eq _ _ fun _ => rfl

theorem execute_scoped {command : List String} (h : Shell.Scoped trusted command) :
    (execute command).Moves (Motion.scoped trusted) := by
  intro w
  rw [perform_execute]
  split
  · exact ⟨⟨[], by simp, by simp⟩, [command], rfl, by simpa using h⟩
  · exact ⟨⟨[], by simp, by simp⟩, [command], rfl, by simpa using h⟩

end Session

/-! ### Streams -/

namespace Stream

theorem keep_scoped {trusted : String} (r : Response) (destination : Path) :
    (keep r destination).Moves (Motion.scoped trusted) :=
  keep_moves Local.scoped close_scoped startReading_scoped r destination

theorem hop_scoped (c : Client) (h : Host) (o : Options) (destination : Path) (url : String) :
    (hop c h o destination url).Moves (Motion.scoped o.trustedHost) :=
  hop_moves (fun _ _ hscoped => send_scoped (Headers.scoped_of_scopedTo hscoped))
    (Files.discard_local destination).scoped

theorem follow_scoped (c : Client) (h : Host) (o : Options) (destination : Path) (first : String)
    (limit : Int) (left : Nat) (url : String) :
    (follow c h o destination first limit left url).Moves (Motion.scoped o.trustedHost) := by
  -- the headers of each hop are scoped to its own URL, so the hops before do not matter
  induction left generalizing url with
  | zero => exact .fail _
  | succ left ih =>
      unfold follow
      refine .bind (hop_scoped c h o destination url) fun r =>
        .bind (judge_moves close_scoped url r) ?_
      intro n
      cases n with
      | go next => exact ih next
      | finish r' => exact .bind (keep_scoped r' destination) fun _ => .log _ _ _

/-- **Every request of a stream is scoped.** -/
theorem download_scoped (c : Client) (h : Host) (limit : Int) (url : String) (destination : Path)
    (o : Options) :
    (download c h limit url destination o).Moves (Motion.scoped o.trustedHost) :=
  follow_scoped c h o destination url limit _ url

end Stream

/-! ### The shell -/

namespace Shell

/-- The credential of a proxy, if there is one. -/
def credentialFor : Option String → Except Failure (Option Script.Credential)
  | some p => Script.credentialOf p
  | none => .ok none

/-- What the script for a download has to say, once its headers and its proxy are known. -/
def jobOf (url : String) (destination : Path) (headers : Headers) (proxy : Option String)
    (credential : Option Script.Credential) : Script.Job :=
  ⟨url, destination.text, Script.tableHeaders headers, Script.agentOf headers, proxy, credential⟩

/-- The part of a download that starts the command. -/
def launch (executable : String) (destination : Path) (j : Script.Job) : Session Unit := do
  match ← attempt (execute (command executable j)) with
  | .error f =>
    if f.isSystem then
      let _ ← Files.discard destination
      fail (.transport s!"Failed to run {executable}: {f.message}")
    else throw f
  | .ok (code, stderr) =>
    if code != 0 then
      let _ ← Files.discard destination
      fail (.commandFailed code stderr)
    else log .info .download s!"Download complete: {destination.text}"

/-- A download decides on its headers and its proxy, and starts one command. -/
theorem download_eq (h : Host) (executable url : String) (destination : Path) (o : Options) :
    download h executable url destination o = (do
      Files.ensureDirectory destination.parent
      log .info .download "Downloading with Invoke-WebRequest"
      let headers ← give (o.headers.scopedTo url o.trustedHost)
      let proxy ← Proxy.forRequest h url o
      let credential ← give (credentialFor proxy)
      launch executable destination (jobOf url destination headers proxy credential)) := by
  unfold download job
  simp only [bind_assoc]
  congr 1
  funext _
  congr 1
  funext _
  congr 1
  funext headers
  congr 1
  funext proxy
  cases proxy with
  | none => rfl
  | some p =>
      simp only [bind_assoc, pure_bind]
      rfl

/-- The script has no credential but for the trusted host. -/
theorem scoped_jobOf {trusted url : String} {headers : Headers} (h : headers.Scoped trusted url)
    (executable : String) (destination : Path) (proxy : Option String)
    (credential : Option Script.Credential) :
    Scoped trusted (command executable (jobOf url destination headers proxy credential)) :=
  ⟨executable, _, rfl, h.filter _⟩

theorem launch_scoped {trusted executable : String} {j : Script.Job}
    (h : Scoped trusted (command executable j)) (destination : Path) :
    (launch executable destination j).Moves (Motion.scoped trusted) := by
  refine .bind (.attempt (execute_scoped h)) ?_
  intro result
  rcases result with f | ⟨code, stderr⟩
  · simp only
    split
    · exact .bind (Files.discard_local _).scoped fun _ => .fail _
    · exact .throw f
  · simp only
    split
    · exact .bind (Files.discard_local _).scoped fun _ => .fail _
    · exact .log _ _ _

/-- **Every script of the shell is scoped.** -/
theorem download_scoped (h : Host) (executable url : String) (destination : Path) (o : Options) :
    (download h executable url destination o).Moves (Motion.scoped o.trustedHost) := by
  rw [download_eq]
  exact .bind (Files.ensureDirectory_local _).scoped fun _ => .bind (.log _ _ _) fun _ =>
    .give_bind fun headers hscoped => .bind (Proxy.forRequest_quiet h url o).moves fun proxy =>
      .bind (.give _) fun credential =>
        launch_scoped (scoped_jobOf (Headers.scoped_of_scopedTo hscoped) _ _ _ _) destination

end Shell

/-! ### Installations -/

theorem Transport.fetch_scoped (t : Transport) (url shownAs : String) (destination : Path)
    (o : Options) : (t.fetch url shownAs destination o).Moves (Motion.scoped o.trustedHost) := by
  refine .bind (.log _ _ _) fun _ => .bind (.log _ _ _) ?_
  intro _
  cases t with
  | stream h c limit => exact Stream.download_scoped c h limit url destination o
  | shell h executable => exact Shell.download_scoped h executable url destination o

@[simp] theorem Release.withToken_trustedHost (o : Options) (token : Option String) :
    (Release.withToken o token).trustedHost = o.trustedHost := by
  unfold withToken
  split <;> rfl

theorem Release.locate_scoped (c : Client) (h : Host) (q : Query) :
    (locate c h q).Moves (Motion.scoped q.apiHost) := by
  have htrusted : q.options.trustedHost = q.apiHost := withToken_trustedHost _ _
  refine locate_moves (Client.getText_moves fun headers proxy hscoped => send_scoped ?_)
  rw [htrusted] at hscoped
  exact Headers.scoped_of_scopedTo hscoped

namespace Installer

theorem download_scoped (i : Installer) (o : Order) :
    (i.download o).Moves (Motion.scoped i.config.apiHost) := by
  have htrusted : (i.assetOptions o).trustedHost = i.config.apiHost :=
    Release.withToken_trustedHost _ _
  refine .bind (Release.locate_scoped i.client i.host (i.query o)) ?_
  intro asset
  rw [← htrusted]
  exact i.transport.fetch_scoped _ _ _ _

/-- **All that an installation sends and starts is scoped**, however it ends. -/
theorem install_scoped (i : Installer) (o : Order) :
    (i.install o).Moves (Motion.scoped i.config.apiHost) := by
  rw [install_eq]
  refine .bind (.give _) fun _ => .bind (Files.ensureDirectory_local _).scoped fun _ =>
    .bind ?_ fun asset => (i.finish_local o asset).scoped
  rw [obtain_eq]
  refine .bind (Files.ensureDirectory_local _).scoped fun _ => .bind ?_ fun cached => ?_
  · unfold reuse
    split
    · exact .pure _
    · exact .look _
  · cases cached with
    | true => exact .bind (.log _ _ _) fun _ => .pure _
    | false =>
        refine .bind (.attempt (i.download_scoped o)) ?_
        intro result
        cases result with
        | ok u => exact .pure _
        | error f =>
            exact .bind (.log _ _ _) fun _ => .bind (Files.discard_local _).scoped fun _ => .throw f

end Installer

end ReleaseFetch
