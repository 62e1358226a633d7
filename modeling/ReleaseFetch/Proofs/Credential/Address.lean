/-
**Where a credential goes.**

Every request of a download that carries a credential has a URL that is found to name the trusted
host.  Whether the client sends it there depends on how the client reads the URL: it does exactly if
the URL is unambiguous.  An ambiguous URL for any two hosts is easily made, so a credential for the
one can be drawn to the other.

Main results:

* `ReleaseFetch.Stream.download_requests` — the first request of a download;
* `ReleaseFetch.Stream.credential_address` — the requests that carry a credential;
* `ReleaseFetch.Stream.download_misleading` — a URL for which the credential goes to another host.
-/

import ReleaseFetch.Proofs.Credential.Scope
import ReleaseFetch.Proofs.Url.Host

set_option autoImplicit false

namespace ReleaseFetch

open Session

/-- Where no proxy is configured and no host is excepted, a URL that names a host is reached without
a proxy, unless its port is none. -/
theorem Proxy.choose_unset {h : Host} (hconfigured : configured h = [])
    (hexceptions : exceptions? h = none) {url : String} {u : Url} (hu : Url.ofText url = .ok u)
    (hscheme : u.scheme ≠ []) (hhost : Url.lowerChars (u.hostname?.getD []) ≠ []) :
    choose h url = u.port?.map fun _ => .direct := by
  have hscheme' : (String.ofList u.scheme).isEmpty = false := by
    simpa [String.isEmpty_iff] using hscheme
  have hhost' : (String.ofList (Url.lowerChars (u.hostname?.getD []))).isEmpty = false := by
    simpa [String.isEmpty_iff] using hhost
  unfold choose
  simp only [hu, hscheme', hhost', Bool.or_self, Bool.false_eq_true, if_false, hexceptions,
    ofConfigured, hconfigured]
  cases u.port? <;> rfl

/-- Without variables in the environment, a misleading URL is reached without a proxy. -/
theorem Proxy.forRequest_misleading {trusted other : String} (ht : IsDomain trusted)
    (ho : IsDomain other) {h : Host} (hh : h.environment = []) {o : Options} (hproxy : o.proxy = none) :
    forRequest h (Url.misleading trusted other) o = pure none := by
  have hempty (names : List String) : h.firstSet? names = none := by
    induction names with
    | nil => rfl
    | cons name rest ih =>
        have hname : h.nonEmpty? name = none := by
          rw [Host.nonEmpty?, Host.get?, hh]
          rfl
        rw [Host.firstSet?, List.findSome?_cons, hname]
        exact ih
  have heither (first second : String) : eitherVariable? h first second = none := by
    rw [eitherVariable?, named?, named?, hempty, hempty]
    rfl
  have hexceptions : exceptions? h = none := heither _ _
  -- no variable is set, so no proxy is configured and no host is excepted
  have hconfigured : configured h = [] := by
    simp [configured, ofScheme?, fallback?, heither]
  obtain ⟨u, hu, hscheme, hauthority⟩ : ∃ u, Url.ofText (Url.misleading trusted other) = .ok u ∧
      u.scheme = ['h', 't', 't', 'p', 's'] ∧
      u.authority = other.toList ++ '\\' :: '@' :: trusted.toList :=
    ⟨_, Url.ofText_misleading ht ho, rfl, rfl⟩
  have hport : u.port? = .ok none := by
    simp only [Url.port?, Url.hostInfo_misleading ht u hauthority]
    rfl
  have hhost : Url.lowerChars (u.hostname?.getD []) ≠ [] := by
    rw [Url.hostname_misleading ht u hauthority, Option.getD_some, ht.lowerChars_lower]
    exact ht.lower_ne_nil
  have hchoose : choose h (Url.misleading trusted other) = .ok .direct := by
    rw [choose_unset hconfigured hexceptions hu (by simp [hscheme]) hhost, hport]
    rfl
  rw [forRequest, hproxy]
  simp only [Option.filter_none, forUrl, hchoose]
  rfl

/-- What is sent is not changed by local steps that follow. -/
theorem Session.exchanges_bind_local {α β : Type} {x : Session α} {k : α → Session β}
    (hk : ∀ a, (k a).Local) (w : World) :
    ((x >>= k).perform w).2.exchanges = (x.perform w).2.exchanges := by
  rw [perform_bind]
  rcases x.perform w with ⟨r, v⟩
  cases r with
  | error f => rfl
  | ok a => exact congrArg Traffic.exchanges ((hk a).traffic v)

/-- What was sent stays sent, whatever follows. -/
theorem Session.requests_bind {α β : Type} {x : Session α} {k : α → Session β} {q : Request}
    {t : String} {w : World}
    (hx : (x.perform w).2.exchanges.map (·.request) = w.exchanges.map (·.request) ++ [q])
    (hk : ∀ a, (k a).Moves (Motion.scoped t)) :
    ∃ qs, ((x >>= k).perform w).2.exchanges.map (·.request) =
      w.exchanges.map (·.request) ++ q :: qs := by
  rw [perform_bind]
  rcases hr : x.perform w with ⟨r, v⟩
  rw [hr] at hx
  cases r with
  | error f => exact ⟨[], hx⟩
  | ok a =>
      obtain ⟨⟨qs, hqs, -⟩, -⟩ := hk a v
      refine ⟨qs, hqs.trans ?_⟩
      rw [hx, List.append_assoc]
      rfl

namespace Stream

/-- **A request that is asked for is sent**, whatever it meets. -/
theorem ask_requests (q : Request) (destination : Path) (note : String) (w : World) :
    ((ask q destination note).perform w).2.exchanges.map (·.request) =
      w.exchanges.map (·.request) ++ [q] := by
  unfold ask
  rw [perform_bind, perform_log]
  simp only
  rw [exchanges_bind_local, perform_attempt, perform_send]
  · split <;> simp [Exchange.opened]
  · intro result
    cases result with
    | ok r => exact .pure _
    | error f =>
        simp only
        split
        · exact .bind (Files.discard_local _) fun _ => .fail _
        · exact .throw f

/-- **The first request of a download** that takes no proxy, and the requests that follow. -/
theorem download_requests {c : Client} {h : Host} {limit : Int} {url : String} {o : Options}
    {headers : Headers} (hlimit : 0 ≤ limit)
    (hscoped : o.headers.scopedTo url o.trustedHost = .ok headers)
    (hproxy : Proxy.forRequest h url o = pure none) (destination : Path) (w : World) :
    ∃ qs, ((download c h limit url destination o).perform w).2.exchanges.map (·.request) =
      w.exchanges.map (·.request) ++ c.request url headers none o true :: qs := by
  obtain ⟨n, hn⟩ : ∃ n, (limit + 1).toNat = n + 1 := ⟨limit.toNat, by omega⟩
  have hhop : ((hop c h o destination url).perform w).2.exchanges.map (·.request) =
      w.exchanges.map (·.request) ++ [c.request url headers none o true] := by
    rw [hop_eq, hscoped, hproxy]
    exact ask_requests _ _ _ w
  unfold download
  rw [hn, follow]
  refine requests_bind (t := o.trustedHost) hhop ?_
  intro response
  refine .bind (judge_moves close_scoped url response) ?_
  intro next
  cases next with
  | go next => exact follow_scoped c h o destination url limit n next
  | finish r => exact .bind (keep_scoped r destination) fun _ => .log _ _ _

/-- **A request that carries the credential is addressed to the trusted host exactly if its URL is
unambiguous.** -/
theorem credential_address (c : Client) (h : Host) (limit : Int) (url : String)
    (destination : Path) (o : Options) (w : World) (ht : IsDomain o.trustedHost) :
    ∃ qs, ((download c h limit url destination o).perform w).2.exchanges.map (·.request) =
        w.exchanges.map (·.request) ++ qs ∧
      ∀ q ∈ qs, q.headers.HasCredential →
        (Client.Addresses q.url o.trustedHost ↔ Url.Unambiguous o.trustedHost q.url) := by
  obtain ⟨⟨qs, hqs, hscoped⟩, -⟩ := download_scoped c h limit url destination o w
  refine ⟨qs, hqs, fun q hq hcredential => ?_⟩
  exact Url.addresses_iff ht (hscoped q hq hcredential)

/-- **For every trusted host and every other one there is a URL whose download sends the headers
for the trusted host to the other one.** -/
theorem download_misleading (c : Client) {h : Host} (hh : h.environment = []) {limit : Int}
    (hlimit : 0 ≤ limit) (destination : Path) {o : Options} (hproxy : o.proxy = none)
    (ht : IsDomain o.trustedHost) {other : String} (ho : IsDomain other)
    (hne : Text.lower other ≠ Text.lower o.trustedHost) (w : World) :
    ∃ q qs, ((download c h limit (Url.misleading o.trustedHost other) destination o).perform
        w).2.exchanges.map (·.request) = w.exchanges.map (·.request) ++ q :: qs ∧
      q.headers = o.headers ∧ Client.Addresses q.url other ∧
      ¬Client.Addresses q.url o.trustedHost := by
  have hhost := Url.hostOf_misleading ht ho
  have hscoped : o.headers.scopedTo (Url.misleading o.trustedHost other) o.trustedHost =
      .ok o.headers := by
    simp [Headers.scopedTo, hhost]
  obtain ⟨qs, hqs⟩ := download_requests hlimit hscoped
    (Proxy.forRequest_misleading ht ho hh hproxy) destination w
  have haddresses := Url.addresses_misleading ht ho
  refine ⟨_, qs, hqs, rfl, haddresses, fun htrusted => hne ?_⟩
  exact Option.some.inj (haddresses.symm.trans htrusted)

/-- What a download is asked for with that carries a credential. -/
def carrying : Options := ⟨[("authorization", "token secret")], none, defaultTrustedHost, none⟩

/-- A redirect from the trusted host to a misleading URL, and a body. -/
def misleadingAnswers : List Answer :=
  [.reply ⟨302, [("Location", Url.misleading defaultTrustedHost "evil.example")], "", []⟩,
    .reply ⟨200, [], "", [.bytes [1]]⟩]

/-- A download that starts at the trusted host. -/
theorem credential_address_redirected :
    IsDomain carrying.trustedHost ∧
    ∃ qs, ((download .own ⟨"linux", "x86_64", []⟩ 5 "https://api.github.com/a" ⟨.here, ["tool"]⟩
        carrying).perform (World.fresh ⟨[], []⟩ misleadingAnswers)).2.exchanges.map (·.request) =
          [] ++ qs ∧
      ∀ q ∈ qs, q.headers.HasCredential →
        (Client.Addresses q.url carrying.trustedHost ↔
          Url.Unambiguous carrying.trustedHost q.url) :=
  ⟨by decide, credential_address _ _ _ _ _ _ _ (by decide)⟩

/-- The client is led to another host with the credential. -/
theorem credential_misled :
    ((download .own ⟨"linux", "x86_64", []⟩ 5 "https://api.github.com/a" ⟨.here, ["tool"]⟩
        carrying).perform (World.fresh ⟨[], []⟩ misleadingAnswers)).2.exchanges.map
          (fun x => (Client.hostOf? x.request.url, x.request.headers)) =
      [(some defaultTrustedHost, carrying.headers), (some "evil.example", carrying.headers)] := by
  decide +kernel

end Stream

end ReleaseFetch
