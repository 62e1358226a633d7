/-
**Which variable decides.**

The proxy of a URL is read from twelve environment variables.  They stand in two orders, one for the
list of exceptions and one for the proxies of a scheme, and in each of them the first variable that
is not empty decides.  The second order is nowhere written down as such: it comes from a table by
scheme and from the order in which a client looks up the keys of such a table.

Main definitions:

* `ReleaseFetch.Host.First`, `ReleaseFetch.Host.Unset` — what decides in an order of variables;
* `ReleaseFetch.Proxy.exceptionOrder`, `ReleaseFetch.Proxy.proxyOrder` — the two orders;
* `ReleaseFetch.Proxy.select` — the keys that a client looks up;
* `ReleaseFetch.Proxy.Routed` — the proxy that the variables of a scheme give.

Main results:

* `ReleaseFetch.Host.firstSet?_eq_some_iff`, `ReleaseFetch.Host.firstSet?_eq_none_iff` — the first
  variable that is not empty;
* `ReleaseFetch.Proxy.exceptions?_eq_firstSet?`, `ReleaseFetch.Proxy.select_configured` — the two
  orders;
* `ReleaseFetch.Proxy.choose_listed`, `ReleaseFetch.Proxy.choose_unlisted` — the choice for a URL
  that names a host;
* `ReleaseFetch.Proxy.forUrl_precedence` — the proxy of a URL.
-/

import ReleaseFetch.Proofs.Text.Cutting
import ReleaseFetch.Proofs.Text.Lowercase
import ReleaseFetch.Proofs.Transfer.Deciding

set_option autoImplicit false

namespace ReleaseFetch

open Text Session

/-! ### The first variable that is not empty -/

namespace Host

variable {h h' : Host} {names : List String} {value : String}

/-- **The first variable of an order that is set to more than nothing** has the value. -/
inductive First (h : Host) : List String → String → Prop
  | here {name value : String} {rest : List String} (hget : h.get? name = some value)
      (hvalue : value ≠ "") : First h (name :: rest) value
  | later {name value : String} {rest : List String}
      (hempty : ∀ v, h.get? name = some v → v = "") (hrest : First h rest value) :
      First h (name :: rest) value

/-- The variables are empty or not set at all. -/
def Unset (h : Host) (names : List String) : Prop :=
  ∀ name ∈ names, ∀ v, h.get? name = some v → v = ""

theorem nonEmpty?_eq_some_iff {name : String} :
    h.nonEmpty? name = some value ↔ h.get? name = some value ∧ value ≠ "" := by
  rw [nonEmpty?, Option.filter_eq_some_iff, bne_iff_ne]

theorem nonEmpty?_eq_none_iff {name : String} :
    h.nonEmpty? name = none ↔ ∀ v, h.get? name = some v → v = "" := by
  simp [nonEmpty?, Option.filter_eq_none_iff]

theorem firstSet?_eq_some_iff : h.firstSet? names = some value ↔ h.First names value := by
  induction names with
  | nil => exact ⟨fun h => (by cases h), fun h => (by cases h)⟩
  | cons name rest ih =>
      rw [firstSet?, List.findSome?_cons]
      cases hname : h.nonEmpty? name with
      | some v =>
          obtain ⟨hget, hv⟩ := nonEmpty?_eq_some_iff.1 hname
          refine ⟨fun heq => Option.some.inj heq ▸ .here hget hv, fun hfirst => ?_⟩
          cases hfirst with
          | here hget' => exact hget.symm.trans hget'
          | later hempty => exact absurd (hempty v hget) hv
      | none =>
          have hempty := nonEmpty?_eq_none_iff.1 hname
          refine ⟨fun hrest => .later hempty (ih.1 hrest), fun hfirst => ?_⟩
          cases hfirst with
          | here hget hvalue => exact absurd (hempty _ hget) hvalue
          | later _ hrest => exact ih.2 hrest

theorem firstSet?_eq_none_iff : h.firstSet? names = none ↔ h.Unset names := by
  simp only [firstSet?, List.findSome?_eq_none_iff, nonEmpty?_eq_none_iff]
  rfl

theorem firstSet?_append (h : Host) (names more : List String) :
    h.firstSet? (names ++ more) = (h.firstSet? names).or (h.firstSet? more) :=
  List.findSome?_append

end Host

namespace Proxy

open Host

/-! ### The two orders -/

/-- The variables of the list of exceptions. -/
def exceptionOrder : List String :=
  ["npm_config_no_proxy", "NPM_CONFIG_NO_PROXY", "no_proxy", "NO_PROXY"]

/-- The variables of the proxies for a scheme. -/
def proxyOrder (scheme : String) : List String :=
  [s!"npm_config_{scheme}_proxy", s!"NPM_CONFIG_{scheme.toUpper}_PROXY", s!"{scheme}_proxy",
    s!"{scheme.toUpper}_PROXY", "npm_config_proxy", "NPM_CONFIG_PROXY", "all_proxy", "ALL_PROXY"]

variable {h h' : Host}

theorem eitherVariable?_eq (h : Host) (first second : String) :
    eitherVariable? h first second =
      h.firstSet? [first.toLower, first.toUpper, second.toLower, second.toUpper] :=
  (firstSet?_append h [first.toLower, first.toUpper] [second.toLower, second.toUpper]).symm

theorem toList_toLower (s : String) : s.toLower.toList = s.toList.map Char.toLower :=
  String.toList_map

theorem toList_toUpper (s : String) : s.toUpper.toList = s.toList.map Char.toUpper :=
  String.toList_map

/-- **The order of the lists of exceptions.** -/
theorem exceptions?_eq_firstSet? (h : Host) : exceptions? h = h.firstSet? exceptionOrder := by
  have hnames : ["npm_config_no_proxy".toLower, "npm_config_no_proxy".toUpper, "no_proxy".toLower,
      "no_proxy".toUpper] = exceptionOrder := by
    simp [exceptionOrder, ← String.toList_inj, toList_toLower, toList_toUpper]
  rw [exceptions?, eitherVariable?_eq, hnames]

/-- A scheme in small letters has its own variables, and then those for all schemes. -/
theorem ofScheme?_or_fallback? {scheme : String}
    (hlower : scheme.toList.map Char.toLower = scheme.toList) (h : Host) :
    (ofScheme? h scheme).or (fallback? h) = h.firstSet? (proxyOrder scheme) := by
  have hnames : [s!"npm_config_{scheme}_proxy".toLower, s!"npm_config_{scheme}_proxy".toUpper,
      s!"{scheme}_proxy".toLower, s!"{scheme}_proxy".toUpper] ++
        ["npm_config_proxy".toLower, "npm_config_proxy".toUpper, "all_proxy".toLower,
          "all_proxy".toUpper] = proxyOrder scheme := by
    simp [proxyOrder, ← String.toList_inj, toList_toLower, toList_toUpper, toString, hlower]
  rw [ofScheme?, fallback?, eitherVariable?_eq, eitherVariable?_eq, ← firstSet?_append, hnames]

/-! ### The table of proxies -/

/-- The keys that a client looks up in a table of proxies: the host of the URL behind its scheme,
its scheme, the host of the URL for all schemes, and all schemes. -/
def select (proxies : List (String × String)) (scheme hostname : String) : Option String :=
  [scheme ++ "://" ++ hostname, scheme, "all" ++ "://" ++ hostname, "all"].findSome? fun key =>
    proxies.lookup key

theorem lookup_field (k key : String) (o : Option String) (rest : List (String × String)) :
    ((o.map (k, ·)).toList ++ rest).lookup key =
      if key = k then o.or (rest.lookup key) else rest.lookup key := by
  cases o with
  | none => simp
  | some v =>
      by_cases hkey : key = k
      · simp [hkey]
      · have hbeq : (key == k) = false := by simpa using hkey
        simp [List.lookup_cons, hbeq, hkey]

theorem configured_eq (h : Host) :
    configured h = ((ofScheme? h "http").map ("http", ·)).toList ++
      (((ofScheme? h "https").map ("https", ·)).toList ++
        (((fallback? h).map ("all", ·)).toList ++ [])) := by
  unfold configured
  cases hhttp : ofScheme? h "http" <;> cases hhttps : ofScheme? h "https" <;>
    simp [defaultPorts, hhttp, hhttps]

/-- What stands in the table of proxies. -/
theorem lookup_configured (h : Host) (key : String) :
    (configured h).lookup key =
      if key = "http" then ofScheme? h "http"
      else if key = "https" then ofScheme? h "https"
      else if key = "all" then fallback? h
      else none := by
  rw [configured_eq, lookup_field, lookup_field, lookup_field]
  split
  · next hkey =>
    subst hkey
    simp
  · split
    · next hkey =>
      subst hkey
      simp
    · simp

/-- No proxy is for one host only. -/
theorem lookup_configured_host (h : Host) (scheme hostname : String) :
    (configured h).lookup (scheme ++ "://" ++ hostname) = none := by
  have hne {key : String} (hkey : ':' ∉ key.toList) : scheme ++ "://" ++ hostname ≠ key := by
    rintro rfl
    exact hkey (by simp)
  rw [lookup_configured, if_neg (hne (by decide)), if_neg (hne (by decide)),
    if_neg (hne (by decide))]

theorem select_eq (h : Host) (scheme hostname : String) :
    select (configured h) scheme hostname =
      ((configured h).lookup scheme).or ((configured h).lookup "all") := by
  unfold select
  simp only [List.findSome?_cons, lookup_configured_host, List.findSome?_nil]
  cases (configured h).lookup scheme with
  | some v => rfl
  | none => cases (configured h).lookup "all" <;> rfl

/-- **The order of the proxies for a scheme.** -/
theorem select_configured {scheme : String} (hscheme : scheme = "http" ∨ scheme = "https")
    (h : Host) (hostname : String) :
    select (configured h) scheme hostname = h.firstSet? (proxyOrder scheme) := by
  have hall : (configured h).lookup "all" = fallback? h := by
    rw [lookup_configured]
    rfl
  rw [select_eq, hall, lookup_configured]
  rcases hscheme with rfl | rfl
  · exact ofScheme?_or_fallback? (by decide) h
  · exact ofScheme?_or_fallback? (by decide) h

/-! ### The proxy of a URL -/

/-- **The proxy that the variables of a scheme give**: the first of them that is not empty, with the
scheme in front if it has none of its own, or no proxy if all are empty. -/
inductive Routed (h : Host) (scheme : String) : Option String → Prop
  | named {value : String} (hfirst : h.First (proxyOrder scheme) value)
      (hscheme : "://".toList <:+: value.toList) : Routed h scheme (some value)
  | completed {value : String} (hfirst : h.First (proxyOrder scheme) value)
      (hscheme : ¬"://".toList <:+: value.toList) :
      Routed h scheme (some (scheme ++ "://" ++ value))
  | direct (hunset : h.Unset (proxyOrder scheme)) : Routed h scheme none

/-- The port of a URL: an explicit one that is not zero, or that of its scheme. -/
def portOf (scheme : String) : Option Nat → Nat
  | none | some 0 => if scheme = "https" then 443 else 80
  | some port => port

theorem ofConfigured_congr {scheme : String} (hscheme : scheme = "http" ∨ scheme = "https")
    (hsame : ∀ name ∈ proxyOrder scheme, h.nonEmpty? name = h'.nonEmpty? name) :
    ofConfigured h scheme = ofConfigured h' scheme := by
  unfold ofConfigured
  simp only
  rw [← select_eq h scheme "", ← select_eq h' scheme "", select_configured hscheme,
    select_configured hscheme, firstSet?_congr hsame]

theorem routed_ofConfigured {scheme : String} (hscheme : scheme = "http" ∨ scheme = "https")
    (h : Host) : Routed h scheme (ofConfigured h scheme).proxy? := by
  unfold ofConfigured
  simp only
  rw [← select_eq h scheme "", select_configured hscheme]
  cases hfirst : h.firstSet? (proxyOrder scheme) with
  | none => exact .direct (firstSet?_eq_none_iff.1 hfirst)
  | some value =>
      have hfirst' := firstSet?_eq_some_iff.1 hfirst
      simp only [Choice.proxy?, completed]
      split
      · next hmark => exact .named hfirst' (occurs_iff.1 hmark)
      · next hmark =>
        exact .completed hfirst' fun hinfix => hmark (occurs_iff.2 hinfix)

/-- Zero is no explicit port. -/
theorem portOf_cases {scheme : String} (hscheme : scheme = "http" ∨ scheme = "https")
    (port? : Option Nat) :
    port?.filter (· != 0) = none ∧ portOf scheme port? = (defaultPorts.lookup scheme).getD 0 ∨
      ∃ n, port?.filter (· != 0) = some n ∧ portOf scheme port? = n := by
  rcases port? with _ | _ | n
  · exact .inl ⟨rfl, by rcases hscheme with rfl | rfl <;> rfl⟩
  · exact .inl ⟨rfl, by rcases hscheme with rfl | rfl <;> rfl⟩
  · exact .inr ⟨n + 1, rfl, rfl⟩

theorem lowerChars_ne_nil {cs : List Char} (h : cs ≠ []) : Url.lowerChars cs ≠ [] := by
  obtain ⟨c, rest, rfl⟩ := List.exists_cons_of_ne_nil h
  rw [Url.lowerChars, lowerFrom_cons]
  -- a character has one small letter or two
  have hletters : smallLetters [] c rest ≠ [] := by
    unfold smallLetters
    split
    · simp
    · split <;> simp
  simp [hletters]

/-- A host that is named is not empty. -/
theorem hostname?_ne_nil {u : Url} {name : List Char} (h : u.hostname? = some name) :
    name ≠ [] := by
  unfold Url.hostname? at h
  simp only at h
  split at h
  · cases h
  · next hhost =>
    split at h
    · obtain rfl := Option.some.inj h
      simp
    · obtain rfl := Option.some.inj h
      exact lowerChars_ne_nil fun hnil => hhost (by rw [hnil]; rfl)

section Precedence

variable {url scheme : String} {u : Url} {name : List Char} {port? : Option Nat}

/-- Neither the scheme nor the host is empty. -/
theorem isEmpty_or_isEmpty (hscheme : scheme = "http" ∨ scheme = "https")
    (hname : u.hostname? = some name) :
    (scheme.isEmpty || (String.ofList (Url.lowerChars name)).isEmpty) = false := by
  have hempty : scheme.isEmpty = false := by rcases hscheme with rfl | rfl <;> rfl
  rw [hempty, Bool.false_or]
  simpa [String.isEmpty_iff] using lowerChars_ne_nil (hostname?_ne_nil hname)

/-- **The choice for a URL that names a host** begins with the exceptions: if there is a list, it is
asked. -/
theorem choose_listed (hscheme : scheme = "http" ∨ scheme = "https")
    (hurl : Url.ofText url = .ok u) (hu : u.scheme = scheme.toList)
    (hname : u.hostname? = some name) (hport : u.port? = .ok port?) {h : Host} {list : String}
    (hlist : h.firstSet? exceptionOrder = some list) :
    choose h url =
      (excepts list (String.ofList (Url.lowerChars name)) (portOf scheme port?)).map fun b =>
        if b then .excepted (String.ofList (Url.lowerChars name)) else ofConfigured h scheme := by
  have hnamed := isEmpty_or_isEmpty hscheme hname
  unfold choose
  simp only [hurl, hu, String.ofList_toList, hname, Option.getD_some, hnamed, Bool.false_eq_true,
    if_false, hport, exceptions?_eq_firstSet?, hlist]
  rcases portOf_cases hscheme port? with ⟨hfilter, hnumber⟩ | ⟨n, hfilter, hnumber⟩
  · rw [hnumber]
    simp only [hfilter]
    cases excepts list (String.ofList (Url.lowerChars name))
        ((defaultPorts.lookup scheme).getD 0 : Nat) with
    | error f => rfl
    | ok b => cases b <;> rfl
  · rw [hnumber]
    simp only [hfilter]
    cases excepts list (String.ofList (Url.lowerChars name)) n with
    | error f => rfl
    | ok b => cases b <;> rfl

/-- Without a list of exceptions the proxies are asked at once. -/
theorem choose_unlisted (hscheme : scheme = "http" ∨ scheme = "https")
    (hurl : Url.ofText url = .ok u) (hu : u.scheme = scheme.toList)
    (hname : u.hostname? = some name) (hport : u.port? = .ok port?) {h : Host}
    (hlist : h.firstSet? exceptionOrder = none) : choose h url = .ok (ofConfigured h scheme) := by
  have hnamed := isEmpty_or_isEmpty hscheme hname
  unfold choose
  simp only [hurl, hu, String.ofList_toList, hname, Option.getD_some, hnamed, Bool.false_eq_true,
    if_false, hport, exceptions?_eq_firstSet?, hlist]

/-- **The variables that decide for a URL.**  The first list of exceptions that is not empty is
asked first; if it names the host at the port of the URL, no proxy is taken.  If it does not, or
there is none, the variables of the scheme are asked, in the order in which they stand.  Nothing
else in the host of the run makes a difference. -/
theorem forUrl_precedence (hscheme : scheme = "http" ∨ scheme = "https")
    (hurl : Url.ofText url = .ok u) (hu : u.scheme = scheme.toList)
    (hname : u.hostname? = some name) (hport : u.port? = .ok port?) (h : Host) (w : World) :
    (h.Unset exceptionOrder → ∃ proxy, Routed h scheme proxy ∧
      ((forUrl h url).perform w).1 = .ok proxy) ∧
    (∀ list, h.First exceptionOrder list →
      match excepts list (String.ofList (Url.lowerChars name)) (portOf scheme port?) with
      | .ok true => ((forUrl h url).perform w).1 = .ok none
      | .ok false => ∃ proxy, Routed h scheme proxy ∧ ((forUrl h url).perform w).1 = .ok proxy
      | .error f => ((forUrl h url).perform w).1 = .error f) ∧
    ∀ (h' : Host) (w' : World), (∀ name ∈ exceptionOrder ++ proxyOrder scheme,
      h'.nonEmpty? name = h.nonEmpty? name) →
        ((forUrl h' url).perform w').1 = ((forUrl h url).perform w).1 := by
  have hresult (h : Host) (w : World) :
      ((forUrl h url).perform w).1 = (choose h url).map Choice.proxy? :=
    (forUrl_yields h url).eq rfl
  have hrouted := routed_ofConfigured hscheme h
  refine ⟨fun hunset => ?_, fun list hfirst => ?_, fun h' w' hsame => ?_⟩
  · refine ⟨_, hrouted, ?_⟩
    rw [hresult, choose_unlisted hscheme hurl hu hname hport (firstSet?_eq_none_iff.2 hunset)]
    rfl
  · rw [hresult, choose_listed hscheme hurl hu hname hport (firstSet?_eq_some_iff.2 hfirst)]
    cases excepts list (String.ofList (Url.lowerChars name)) (portOf scheme port?) with
    | error f => rfl
    | ok b =>
        cases b with
        | true => rfl
        | false => exact ⟨_, hrouted, rfl⟩
  · obtain ⟨hexceptions, hproxies⟩ := List.forall_mem_append.1 hsame
    have hlists := firstSet?_congr hexceptions
    have hsame := ofConfigured_congr hscheme hproxies
    rw [hresult, hresult]
    cases hlist : h.firstSet? exceptionOrder with
    | none =>
        rw [choose_unlisted hscheme hurl hu hname hport (hlists.trans hlist),
          choose_unlisted hscheme hurl hu hname hport hlist, hsame]
    | some list =>
        rw [choose_listed hscheme hurl hu hname hport (hlists.trans hlist),
          choose_listed hscheme hurl hu hname hport hlist, hsame]

end Precedence

/-- An environment in which the first variable of an order is never the one that decides. -/
def layeredHost : Host :=
  ⟨"linux", "x86_64", [("all_proxy", "last:1"), ("https_proxy", "plain:2"), ("no_proxy", "b.org"),
    ("npm_config_no_proxy", ""), ("NPM_CONFIG_HTTPS_PROXY", "upper:3"),
    ("npm_config_https_proxy", ""), ("npm_config_http_proxy", "other:4")]⟩

/-- An upper-case variable before a plain one, for a URL with capitals and the port zero. -/
theorem forUrl_precedence_layered :
    ((forUrl layeredHost "HTTPS://API.b.org:0/x").perform (World.fresh ⟨[], []⟩ [])).1 =
      .ok (some "https://upper:3") := by
  have hurl : Url.ofText "HTTPS://API.b.org:0/x" =
      .ok ⟨"https".toList, "API.b.org:0".toList, "/x".toList, [], [], []⟩ := by decide +kernel
  have hname : Url.hostname? ⟨"https".toList, "API.b.org:0".toList, "/x".toList, [], [], []⟩ =
      some "api.b.org".toList := by decide +kernel
  have hport : Url.port? ⟨"https".toList, "API.b.org:0".toList, "/x".toList, [], [], []⟩ =
      .ok (some 0) := by decide +kernel
  have hlist : layeredHost.First exceptionOrder "b.org" :=
    firstSet?_eq_some_iff.1 (by decide +kernel)
  have hproxy : layeredHost.firstSet? (proxyOrder "https") = some "upper:3" := by decide +kernel
  have hexcepted : excepts "b.org" (String.ofList (Url.lowerChars "api.b.org".toList))
      (portOf "https" (some 0)) = .ok false := by decide +kernel
  obtain ⟨-, hlisted, -⟩ := forUrl_precedence (.inr rfl) hurl rfl hname hport layeredHost
    (World.fresh ⟨[], []⟩ [])
  have hout := hlisted _ hlist
  rw [hexcepted] at hout
  obtain ⟨proxy, hrouted, hout⟩ := hout
  rw [hout]
  cases hrouted with
  | named hfirst hscheme =>
      obtain rfl := Option.some.inj (hproxy.symm.trans (firstSet?_eq_some_iff.2 hfirst))
      exact absurd hscheme (by decide +kernel)
  | completed hfirst =>
      obtain rfl := Option.some.inj (hproxy.symm.trans (firstSet?_eq_some_iff.2 hfirst))
      rfl
  | direct hunset =>
      rw [firstSet?_eq_none_iff.2 hunset] at hproxy
      cases hproxy

end Proxy

end ReleaseFetch
