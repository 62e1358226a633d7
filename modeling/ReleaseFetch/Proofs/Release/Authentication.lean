/-
**Who is told the token.**

The lookup of a release carries the token to the host of the release interface.  It is scoped like
any other request: the host that its URL names is compared with the host that was configured, as a
text.  A plain name is found again, whatever the repository and the tag are; a name with a port
never is, since the host of a URL has none, so that the token is dropped.

Main definitions:

* `ReleaseFetch.Host.NoProxy` — an environment that names no proxy and no exception;
* `ReleaseFetch.Url.IsPort` — digits that are read as a port;
* `ReleaseFetch.Release.hostText` — a host as it is configured, with or without a port.

Main results:

* `ReleaseFetch.Release.ofText_url` — the host and the port of the URL of a release;
* `ReleaseFetch.Release.scopedTo_url` — the headers that it may see;
* `ReleaseFetch.Release.locate_credential` — the request of a lookup, with and without a port;
* `ReleaseFetch.Release.port_loses_credential` — a host with a port is not told the token.
-/

import ReleaseFetch.Proofs.Credential.Address
import ReleaseFetch.Proofs.Credential.Masking

set_option autoImplicit false

namespace ReleaseFetch

open Text Session

/-! ### An environment without proxies -/

namespace Proxy

/-- The names of the variables that hold a list of exceptions. -/
def exceptionNames : List String := ["npm_config_no_proxy", "no_proxy"]

/-- The variables that hold a list of exceptions, in lower and in upper case. -/
def exceptionVariables : List String := exceptionNames ++ exceptionNames.map String.toUpper

end Proxy

/-- The environment names no proxy and no exception. -/
def Host.NoProxy (h : Host) : Prop :=
  ∀ name ∈ Proxy.proxyVariables ++ Proxy.exceptionVariables, h.nonEmpty? name = none

namespace Host.NoProxy

open Proxy

variable {h : Host}

theorem eitherVariable? (hh : h.NoProxy) {first second : String}
    (hnames : ∀ name ∈ [first.toLower, first.toUpper, second.toLower, second.toUpper],
      name ∈ proxyVariables ++ exceptionVariables) : Proxy.eitherVariable? h first second = none := by
  have hnone (name : String)
      (hname : name ∈ [first.toLower, first.toUpper, second.toLower, second.toUpper]) :
      h.nonEmpty? name = none := hh name (hnames name hname)
  have hfirst : named? h first = none := by
    simp [named?, Host.firstSet?, hnone first.toLower (by simp), hnone first.toUpper (by simp)]
  have hsecond : named? h second = none := by
    simp [named?, Host.firstSet?, hnone second.toLower (by simp), hnone second.toUpper (by simp)]
  rw [Proxy.eitherVariable?, hfirst, hsecond]
  rfl

theorem configured (hh : h.NoProxy) : Proxy.configured h = [] := by
  have hhttp : Proxy.eitherVariable? h "npm_config_http_proxy" "http_proxy" = none :=
    hh.eitherVariable? (by decide +kernel)
  have hhttps : Proxy.eitherVariable? h "npm_config_https_proxy" "https_proxy" = none :=
    hh.eitherVariable? (by decide +kernel)
  have hall : fallback? h = none := hh.eitherVariable? (by decide +kernel)
  have hschemes : ofScheme? h "http" = none ∧ ofScheme? h "https" = none := ⟨hhttp, hhttps⟩
  simp [Proxy.configured, defaultPorts, hschemes, hall]

theorem exceptions? (hh : h.NoProxy) : Proxy.exceptions? h = none :=
  hh.eitherVariable? (by decide +kernel)

end Host.NoProxy

/-! ### The host of the release interface -/

/-- Digits that are read as a port. -/
def Url.IsPort (p : String) : Prop :=
  Url.isNumber p.toList = true ∧ Url.numberValue p.toList ≤ Url.portLimit

instance (p : String) : Decidable (Url.IsPort p) := inferInstanceAs (Decidable (_ ∧ _))

/-- The characters of a port are those of an authority without brackets, colons and marks. -/
theorem Url.IsPort.chars {p : String} (h : IsPort p) {c : Char} (hc : c ∈ p.toList) :
    (IsAscii c ∧ isLineOrTab c = false ∧ endsAuthority c = false) ∧ c ∉ ['[', ']', '@'] := by
  have hnumber := h.1
  rw [isNumber, Bool.and_eq_true, List.all_eq_true] at hnumber
  have hdigit := hnumber.2 c hc
  have hascii : IsAscii c := by
    simp only [Bool.and_eq_true, decide_eq_true_eq, Char.le_def, UInt32.le_iff_toNat_le] at hdigit
    exact Nat.lt_of_le_of_lt hdigit.2 (by decide)
  exact ⟨⟨hascii, IsAscii.all (P := fun c => ('0' ≤ c && c ≤ '9') = true → isLineOrTab c = false ∧
    endsAuthority c = false) (by decide +kernel) hascii hdigit⟩,
    IsAscii.all (P := fun c => ('0' ≤ c && c ≤ '9') = true → c ∉ ['[', ']', '@'])
      (by decide +kernel) hascii hdigit⟩

namespace Release

/-- A host as it is configured: a name, and a port behind a colon. -/
def hostText (name : String) : Option String → String
  | none => name
  | some p => s!"{name}:{p}"

theorem toList_hostText (name : String) (port : Option String) :
    (hostText name port).toList = name.toList ++ Url.portChars port := by
  cases port with
  | none => exact (List.append_nil _).symm
  | some p =>
      have htext : hostText name (some p) = name ++ ":" ++ p := rfl
      rw [htext, String.toList_append, String.toList_append, List.append_assoc]
      rfl

section Lookup

variable {name : String} {port : Option String}

theorem isAuthority_hostText (hname : IsDomain name) (hport : ∀ p ∈ port, Url.IsPort p) :
    Url.IsAuthority (hostText name port).toList := by
  intro c hc
  rw [toList_hostText, List.mem_append] at hc
  rcases hc with hc | hc
  · exact hname.isAuthority c hc
  · cases port with
    | none => cases hc
    | some p =>
        rw [Url.portChars, List.mem_cons] at hc
        rcases hc with rfl | hc
        · exact ⟨by unfold IsAscii; decide, rfl, rfl⟩
        · exact ((hport p rfl).chars hc).1

/-- No mark stands in such a host. -/
theorem notMem_hostText (hname : IsDomain name) (hport : ∀ p ∈ port, Url.IsPort p) {c : Char}
    (hc : c ∈ ['[', ']', '@']) : c ∉ Url.portChars port ∧ c ∉ (hostText name port).toList := by
  have hdomain : isDomainChar c = false ∧ c ≠ ':' := by
    simp only [List.mem_cons, List.not_mem_nil, or_false] at hc
    rcases hc with rfl | rfl | rfl <;> exact ⟨rfl, by decide⟩
  have hchars : c ∉ Url.portChars port := by
    cases port with
    | none => exact List.not_mem_nil
    | some p =>
        rw [Url.portChars, List.mem_cons, not_or]
        exact ⟨hdomain.2, fun hmem => ((hport p rfl).chars hmem).2 hc⟩
  refine ⟨hchars, ?_⟩
  rw [toList_hostText, List.mem_append, not_or]
  exact ⟨hname.notMem hdomain.1, hchars⟩

/-- **The URL of a release names the host and the port that were configured**, whatever the
repository and the tag are. -/
theorem ofText_url (hname : IsDomain name) (hport : ∀ p ∈ port, Url.IsPort p)
    (repo tag : String) :
    ∃ u, Url.ofText (url (hostText name port) repo tag) = .ok u ∧ u.scheme ≠ [] ∧
      u.hostInfo = (name.toList, (Url.portChars port).tail) := by
  have hnotMem {c : Char} (hc : c ∈ ['[', ']', '@']) : c ∉ (hostText name port).toList :=
    (notMem_hostText hname hport hc).2
  have hbrackets : Url.bracketsFault? (hostText name port).toList = none := by
    simp [Url.bracketsFault?, hnotMem (c := '[') (by decide), hnotMem (c := ']') (by decide)]
  have hs : (url (hostText name port) repo tag).toList = "https".toList ++ ':' :: '/' :: '/' ::
      ((hostText name port).toList ++ ("/repos/" ++ repo ++ "/releases/tags/" ++ tag).toList) := by
    have htext : url (hostText name port) repo tag =
        "https://" ++ hostText name port ++ "/repos/" ++ repo ++ "/releases/tags/" ++ tag := rfl
    simp [htext]
  obtain ⟨u, hu, hscheme, hauthority⟩ := Url.ofText_front (by decide)
    (isAuthority_hostText hname hport) hbrackets (by simp; rfl) hs
  refine ⟨u, hu, by simp [hscheme], ?_⟩
  refine hname.hostInfo (notMem_hostText hname hport (by decide)).1 ?_
  rw [hauthority, Url.hostAndPort, afterLast_of_notMem (hnotMem (by decide)), toList_hostText]

/-- A configured host is the name of its URL exactly if it has no port. -/
theorem lower_hostText (hname : IsDomain name) :
    lower name = lower (hostText name port) ↔ port = none := by
  refine ⟨fun heq => ?_, fun hnone => by rw [hnone, hostText]⟩
  cases port with
  | none => rfl
  | some p =>
      -- the colon stays one in lower case, and no domain name has one
      have hcolon : ':' ∈ (lower (hostText name (some p))).toList := by
        rw [lower, String.toList_ofList, toList_hostText]
        exact toLower_mem_lowerFrom (c := ':') (by unfold IsAscii; decide) (by simp [Url.portChars])
      rw [← heq] at hcolon
      exact absurd (hname.isDomainChar_lower ':' hcolon) (by decide)

/-- **The URL of a release may see all headers if the host has no port**, and otherwise all but the
credentials. -/
theorem scopedTo_url (hname : IsDomain name) (hport : ∀ p ∈ port, Url.IsPort p) (hs : Headers)
    (repo tag : String) :
    hs.scopedTo (url (hostText name port) repo tag) (hostText name port) =
      .ok (if port = none then hs else hs.withoutCredentials) := by
  obtain ⟨u, hu, -, hinfo⟩ := ofText_url hname hport repo tag
  have hhost := hname.hostOf hu (hname.hostname (by rw [hinfo]))
  simp only [Headers.scopedTo, hhost, beq_iff_eq, lower_hostText hname]

/-- The port of the URL of a release can be read unless it has too many digits. -/
theorem port_url (hport : ∀ p ∈ port, Url.IsPort p) {u : Url}
    (hu : u.hostInfo.2 = (Url.portChars port).tail) :
    (∃ n, u.port? = .ok n ∧ ∀ p ∈ port, p.toList.length ≤ Numeral.digitLimit) ∨
      ∃ f p, u.port? = .error f ∧ port = some p ∧ ¬p.toList.length ≤ Numeral.digitLimit := by
  unfold Url.port?
  rw [hu]
  cases port with
  | none => exact .inl ⟨none, rfl, fun p hp => by cases hp⟩
  | some p =>
      obtain ⟨hnumber, hvalue⟩ := hport p rfl
      have hempty : p.toList.isEmpty = false := by
        rw [Url.isNumber, Bool.and_eq_true, Bool.not_eq_true'] at hnumber
        exact hnumber.1
      rw [Url.portChars, List.tail_cons, if_neg (by rw [hempty]; decide),
        if_neg (by rw [hnumber]; decide)]
      by_cases hlong : p.toList.length > Numeral.digitLimit
      · rw [if_pos hlong]
        exact .inr ⟨_, p, rfl, rfl, Nat.not_le.2 hlong⟩
      · rw [if_neg hlong, if_pos hvalue]
        refine .inl ⟨_, rfl, fun p' hp' => ?_⟩
        obtain rfl := Option.some.inj hp'
        exact Nat.not_lt.1 hlong

/-- Without variables for proxies, the release is asked for directly, or not at all. -/
theorem choose_url (hname : IsDomain name) (hport : ∀ p ∈ port, Url.IsPort p) {h : Host}
    (hh : h.NoProxy) (repo tag : String) :
    (Proxy.choose h (url (hostText name port) repo tag) = .ok .direct ∧
        ∀ p ∈ port, p.toList.length ≤ Numeral.digitLimit) ∨
      ∃ f p, Proxy.choose h (url (hostText name port) repo tag) = .error f ∧ port = some p ∧
        ¬p.toList.length ≤ Numeral.digitLimit := by
  obtain ⟨u, hu, hscheme, hinfo⟩ := ofText_url hname hport repo tag
  have hhost : Url.lowerChars (u.hostname?.getD []) ≠ [] := by
    rw [hname.hostname (by rw [hinfo]), Option.getD_some, hname.lowerChars_lower]
    exact hname.lower_ne_nil
  rw [Proxy.choose_unset hh.configured hh.exceptions? hu hscheme hhost]
  rcases port_url hport (u := u) (by rw [hinfo]) with ⟨n, hn, hshort⟩ | ⟨f, p, hf, hp, hlong⟩
  · rw [hn]
    exact .inl ⟨rfl, hshort⟩
  · rw [hf]
    exact .inr ⟨f, p, rfl, hp, hlong⟩

end Lookup

end Release

/-! ### What is sent -/

namespace Client

/-- A request for a text is sent, whatever it meets. -/
theorem askText_requests (q : Request) (w : World) :
    ((askText q).perform w).2.exchanges.map (·.request) = w.exchanges.map (·.request) ++ [q] := by
  unfold askText wrapNetwork
  rw [exchanges_bind_local, exchanges_bind_local, perform_attempt, perform_send]
  · split <;> simp [Exchange.opened]
  · intro result
    cases result with
    | ok r => exact .pure _
    | error f =>
        simp only
        split
        · exact .fail _
        · exact .throw f
  · intro response
    split
    · exact .bind (.fail _) fun _ => .pure _
    · exact .pure _

/-- What is sent for a text is one request, or none if there is no choice of a proxy. -/
theorem getText_requests {c : Client} {h : Host} {url : String} {o : Options} {headers : Headers}
    (hscoped : o.headers.scopedTo url o.trustedHost = .ok headers) (hproxy : o.proxy = none)
    (w : World) :
    (Proxy.choose h url = .ok .direct →
      ((c.getText h url o).perform w).2.exchanges.map (·.request) =
        w.exchanges.map (·.request) ++ [c.request url headers none o false]) ∧
    ∀ f, Proxy.choose h url = .error f →
      ((c.getText h url o).perform w).2.exchanges = w.exchanges := by
  have hforRequest : Proxy.forRequest h url o = Proxy.forUrl h url := by
    rw [Proxy.forRequest, hproxy]
    rfl
  rw [getText_eq, hscoped, hforRequest]
  constructor
  · intro hchoose
    rw [Proxy.forUrl, hchoose, perform_bind, perform_log]
    simp only [Session.give, pure_bind, noteProxy]
    rw [askText_requests]
  · intro f hchoose
    rw [Proxy.forUrl, hchoose]
    rfl

end Client

namespace Release

/-- What a lookup sends is what it takes to get the description of the release. -/
theorem locate_exchanges (c : Client) (h : Host) (q : Query) (w : World) :
    ∃ v : World, v.exchanges = w.exchanges ∧
      ((locate c h q).perform w).2.exchanges =
        ((c.getText h (url q.apiHost q.repo q.version) q.options).perform v).2.exchanges := by
  have hlocal (body : String) : (readListing body >>= fun listing => pick listing q.asset).Local :=
    .bind (readListing_quiet body).isLocal fun listing => (pick_quiet listing q.asset).isLocal
  unfold locate
  rw [perform_bind, perform_log]
  simp only
  refine ⟨_, ?_, exchanges_bind_local hlocal _⟩
  rfl

/-- The headers of the requests that a lookup sends to a host with a port, or without one: the token
goes to a host without a port only, and a port that cannot be read keeps the request from being
sent. -/
def headersSent (q : Query) (token : String) : Option String → List Headers
  | none => [[("user-agent", q.userAgent), ("authorization", credential token)]]
  | some p =>
    if p.toList.length ≤ Numeral.digitLimit then [[("user-agent", q.userAgent)]] else []

/-- Without credentials, the name of the program is left. -/
theorem withoutCredentials_token (agent value : String) :
    Headers.withoutCredentials [("user-agent", agent), ("authorization", value)] =
      [("user-agent", agent)] := by
  have hagent : Headers.isCredential "user-agent" = false := by decide +kernel
  have htoken : Headers.isCredential "authorization" = true := by decide +kernel
  simp [Headers.withoutCredentials, hagent, htoken]

/-- **A lookup sends the token exactly if the host is configured without a port**, whatever is asked
for and whatever is answered. -/
theorem locate_credential (c : Client) {h : Host} (hh : h.NoProxy) {name : String}
    (hname : IsDomain name) {port : Option String} (hport : ∀ p ∈ port, Url.IsPort p) {q : Query}
    (hhost : q.apiHost = hostText name port) {token : String} (htoken : q.token = some token)
    (hne : token ≠ "") (w : World) :
    ((locate c h q).perform w).2.exchanges.map (·.request) = w.exchanges.map (·.request) ++
      (headersSent q token port).map fun headers =>
        c.request (url q.apiHost q.repo q.version) headers none q.options false := by
  obtain ⟨v, hv, hlocate⟩ := locate_exchanges c h q w
  have hfilter : q.token.filter (· != "") = some token := by simp [htoken, hne]
  have hoptions : q.options = ⟨[("user-agent", q.userAgent), ("authorization", credential token)],
      none, q.apiHost, q.timeout⟩ := by
    rw [Query.options, withToken, hfilter]
    rfl
  have htrusted : q.options.trustedHost = hostText name port := by rw [hoptions, hhost]
  have hscoped := scopedTo_url hname hport q.options.headers q.repo q.version
  rw [← htrusted] at hscoped
  obtain ⟨hdirect, hrefused⟩ := Client.getText_requests (c := c) (h := h) (w := v) hscoped
    (by rw [hoptions])
  rw [htrusted] at hdirect hrefused
  rw [hlocate, hhost]
  rcases choose_url hname hport hh q.repo q.version with
    ⟨hok, hshort⟩ | ⟨f, p, herror, rfl, hlong⟩
  · rw [hdirect hok, hv, hoptions]
    cases port with
    | none => rfl
    | some p =>
        rw [headersSent, if_pos (hshort p rfl), if_neg (Option.some_ne_none p)]
        simp only [withoutCredentials_token]
        rfl
  · rw [hrefused f herror, hv, headersSent, if_neg hlong, List.map_nil, List.append_nil]

/-- A lookup at a host, with a token. -/
def queryAt (apiHost : String) : Query :=
  ⟨"owner/tool", "v1", "tool", some "secret", "binfetch", apiHost, none⟩

/-- A host without a port is told the token. -/
theorem locate_credential_plain :
    ((locate .own ⟨"linux", "x86_64", []⟩ (queryAt "ghe.example")).perform
        (World.fresh ⟨[], []⟩ [])).2.exchanges.map (·.request) =
      [] ++ [Client.own.request "https://ghe.example/repos/owner/tool/releases/tags/v1"
        [("user-agent", "binfetch"), ("authorization", "token secret")] none
        (queryAt "ghe.example").options false] := by
  have hname : IsDomain "ghe.example" := by decide
  have hport : ∀ p ∈ (none : Option String), Url.IsPort p := nofun
  have htoken : (queryAt "ghe.example").token = some "secret" := rfl
  exact locate_credential .own (fun _ _ => rfl) hname hport rfl htoken (by decide) _

/-- **A host with a port is not told the token.** -/
theorem port_loses_credential :
    IsDomain "ghe.example" ∧ Url.IsPort "8443" ∧
      ((locate .own ⟨"linux", "x86_64", []⟩ (queryAt (hostText "ghe.example" (some "8443")))).perform
        (World.fresh ⟨[], []⟩ [])).2.exchanges.map (fun x => (x.request.url, x.request.headers)) =
      [("https://ghe.example:8443/repos/owner/tool/releases/tags/v1", [("user-agent", "binfetch")])] :=
  by decide +kernel

end Release

end ReleaseFetch
