/-
**Passwords of proxies.**

A proxy that the environment names may carry a password.  What a run decides from the environment is
which proxy a request takes, and whether that proxy can be read; what it shows of the proxy has the
password masked.  So in two environments that differ in such passwords only, a run takes the same
proxies but for the passwords in them, shows the same of them, and fails where they cannot be read
with the same words.

Main definitions:

* `ReleaseFetch.Proxy.withLogin`, `ReleaseFetch.Proxy.SameButPassword` — values of variables that
  differ in a password;
* `ReleaseFetch.Host.SameButPasswords` — environments that differ in such values;
* `ReleaseFetch.Proxy.Masked` — proxies that differ in a password.

Main results:

* `ReleaseFetch.Proxy.redacted_login` — what the journal shows of a proxy with a login;
* `ReleaseFetch.Proxy.credentialOf_login` — the credential that such a proxy carries;
* `ReleaseFetch.Proxy.choose_masked` — the proxy of a URL.
-/

import Mathlib.Data.List.Forall2
import ReleaseFetch.Proofs.Credential.Scope
import ReleaseFetch.Proofs.Url.Login

set_option autoImplicit false

namespace ReleaseFetch

open Text

namespace Proxy

open Url

/-! ### A proxy with a login -/

/-- What a URL is read from: a scheme and an authority with a login. -/
def loginUrl (scheme : List Char) (user password host : String) : List Char :=
  scheme ++ ':' :: '/' :: '/' :: loginChars user password host

section Login

variable {user password host proxy : String} {scheme : List Char}

/-- The host of such a proxy, by itself. -/
def bare (scheme : List Char) (host : String) : Url :=
  ⟨scheme.map Char.toLower, host.toList, [], [], [], []⟩

/-- The port of a proxy as it is shown. -/
def shownPort (port? : Option Nat) : List Char :=
  match port?.filter (· != 0) with
  | some n => ':' :: (toString n).toList
  | none => []

/-- **What the journal shows of a proxy with a login** is made of its scheme, its user and its host.
-/
theorem redacted_login (h : Login user password host) (hscheme : IsScheme scheme)
    (hproxy : proxy.toList = loginUrl scheme user password host) :
    redacted proxy = match bracketsFault? host.toList with
      | some fault => .error (.badValue fault)
      | none =>
        match (bare scheme host).port? with
        | .error f => .error f
        | .ok port? =>
          .ok ({ bare scheme host with
            authority := user.toList ++ ":***@".toList ++
              (bare scheme host).hostname?.getD "None".toList ++ shownPort port? } : Url).text := by
  have hempty : proxy.isEmpty = false := by
    have hne : proxy ≠ "" := by
      rintro rfl
      simp [loginUrl] at hproxy
    simpa using hne
  rw [redacted, hempty, h.ofText hscheme hproxy]
  simp only [Bool.false_eq_true, if_false]
  cases bracketsFault? host.toList with
  | some fault => rfl
  | none =>
      have hinfo := h.hostInfo (u := ⟨scheme.map Char.toLower, loginChars user password host, [], [],
        [], []⟩) (v := bare scheme host) rfl rfl
      have huser := h.userInfo (u := ⟨scheme.map Char.toLower, loginChars user password host, [], [],
        [], []⟩) rfl
      simp only [password?, user?, huser, Option.bind_some, Option.map_some, Option.getD_some, port?,
        hostname?, hinfo]
      rfl

/-- **The credential that a proxy with a login carries.** -/
theorem credentialOf_login (h : Login user password host) (hscheme : IsScheme scheme)
    (hproxy : proxy.toList = loginUrl scheme user password host) :
    Script.credentialOf proxy = match bracketsFault? host.toList with
      | some fault => .error (.badValue fault)
      | none =>
        .ok (if user.toList.isEmpty || password.toList.isEmpty then none
          else some ⟨String.ofList (unescape user.toList),
            String.ofList (unescape password.toList)⟩) := by
  rw [Script.credentialOf, h.ofText hscheme hproxy]
  cases bracketsFault? host.toList with
  | some fault => rfl
  | none =>
      have huser := h.userInfo (u := ⟨scheme.map Char.toLower, loginChars user password host, [], [],
        [], []⟩) rfl
      simp only [password?, user?, huser, Option.bind_some, Option.map_some]
      split <;> rfl

end Login

/-! ### Proxies that differ in a password -/

/-- Two proxies with a scheme and a login that differ in the password. -/
def Masked (proxy proxy' : String) : Prop :=
  ∃ scheme user password password' host, IsScheme scheme ∧ Login user password host ∧
    Login user password' host ∧ proxy.toList = loginUrl scheme user password host ∧
    proxy'.toList = loginUrl scheme user password' host

theorem Masked.redacted {proxy proxy' : String} (h : Masked proxy proxy') :
    redacted proxy = redacted proxy' := by
  obtain ⟨scheme, user, password, password', host, hscheme, hlogin, hlogin', hproxy, hproxy'⟩ := h
  rw [redacted_login hlogin hscheme hproxy, redacted_login hlogin' hscheme hproxy']

theorem Masked.credentialOf {proxy proxy' : String} (h : Masked proxy proxy') :
    (∃ f, Script.credentialOf proxy = .error f ∧ Script.credentialOf proxy' = .error f) ∨
      ∃ a a', Script.credentialOf proxy = .ok a ∧ Script.credentialOf proxy' = .ok a' := by
  obtain ⟨scheme, user, password, password', host, hscheme, hlogin, hlogin', hproxy, hproxy'⟩ := h
  rw [credentialOf_login hlogin hscheme hproxy, credentialOf_login hlogin' hscheme hproxy']
  cases bracketsFault? host.toList with
  | some fault => exact .inl ⟨_, rfl, rfl⟩
  | none => exact .inr ⟨_, _, rfl, rfl⟩

/-- Two proxies of a request that differ at most in a password, or none at all. -/
def Paired (proxy proxy' : Option String) : Prop :=
  proxy = proxy' ∨ ∃ p p', proxy = some p ∧ proxy' = some p' ∧ Masked p p'

/-- Two choices that differ at most in the password of their proxies. -/
def Choice.Paired (a a' : Choice) : Prop :=
  a = a' ∨ ∃ p p', a = .through p ∧ a' = .through p' ∧ Masked p p'

/-! ### Values of variables -/

/-- A proxy as a variable names it, with a scheme or without one. -/
def withLogin (scheme? : Option String) (user password host : String) : String :=
  (scheme?.map (· ++ "://")).getD "" ++ user ++ ":" ++ password ++ "@" ++ host

/-- Two values that differ in the password of a login. -/
def SameButPassword (v v' : String) : Prop :=
  ∃ scheme? user password password' host, (∀ s ∈ scheme?, IsScheme s.toList) ∧
    Login user password host ∧ Login user password' host ∧
    v = withLogin scheme? user password host ∧ v' = withLogin scheme? user password' host

section Values

variable {user password host : String} {scheme : List Char}

theorem withLogin_none_toList (user password host : String) :
    (withLogin none user password host).toList = loginChars user password host := by
  simp [withLogin, loginChars]

theorem withLogin_some_toList (s user password host : String) :
    (withLogin (some s) user password host).toList = loginUrl s.toList user password host := by
  simp [withLogin, loginUrl, loginChars]

/-- **A value is completed to a proxy with a scheme**, its own or that of the URL. -/
theorem completed_withLogin (h : Login user password host) (scheme? : Option String)
    (scheme : String) :
    (completed scheme (withLogin scheme? user password host)).toList =
      loginUrl (scheme?.getD scheme).toList user password host := by
  cases scheme? with
  | some s =>
      have hscheme : hasScheme (withLogin (some s) user password host) = true := by
        rw [hasScheme, withLogin_some_toList]
        exact occurs_iff.2 ⟨s.toList, loginChars user password host, by simp [loginUrl]⟩
      rw [completed, if_pos hscheme, withLogin_some_toList, Option.getD_some]
  | none =>
      -- no slash stands in a login, so the mark of a scheme does not occur
      have hscheme : ¬hasScheme (withLogin none user password host) = true := by
        intro hoccurs
        rw [hasScheme, withLogin_none_toList] at hoccurs
        have hends := (h.isAuthority '/' ((occurs_iff.1 hoccurs).subset (by decide))).2.2
        revert hends
        decide
      rw [completed, if_neg hscheme]
      simp [loginUrl, withLogin_none_toList, toString]

theorem SameButPassword.completed {v v' scheme : String} (h : SameButPassword v v')
    (hscheme : IsScheme scheme.toList) : Masked (completed scheme v) (completed scheme v') := by
  obtain ⟨scheme?, user, password, password', host, hscheme?, hlogin, hlogin', rfl, rfl⟩ := h
  refine ⟨(scheme?.getD scheme).toList, user, password, password', host, ?_, hlogin, hlogin',
    completed_withLogin hlogin scheme? scheme, completed_withLogin hlogin' scheme? scheme⟩
  cases scheme? with
  | some s => exact hscheme? s rfl
  | none => exact hscheme

theorem SameButPassword.ne_empty {v v' : String} (h : SameButPassword v v') : v ≠ "" ∧ v' ≠ "" := by
  have hne (scheme? : Option String) (user password host : String) :
      withLogin scheme? user password host ≠ "" := by
    intro heq
    have hlength := congrArg String.toList heq
    simp [withLogin] at hlength
  obtain ⟨scheme?, user, password, password', host, -, -, -, rfl, rfl⟩ := h
  exact ⟨hne scheme? user password host, hne scheme? user password' host⟩

/-- Two values that are the same or differ in a password. -/
def Near (v v' : String) : Prop := v = v' ∨ SameButPassword v v'

/-- Two values that are both missing, or both there and near. -/
def NearOrNone (v v' : Option String) : Prop :=
  (v = none ∧ v' = none) ∨ ∃ a a', v = some a ∧ v' = some a' ∧ Near a a'

theorem NearOrNone.refl (v : Option String) : NearOrNone v v := by
  cases v with
  | none => exact .inl ⟨rfl, rfl⟩
  | some a => exact .inr ⟨a, a, rfl, rfl, .inl rfl⟩

theorem NearOrNone.or {a a' b b' : Option String} (ha : NearOrNone a a') (hb : NearOrNone b b') :
    NearOrNone (a.or b) (a'.or b') := by
  rcases ha with ⟨rfl, rfl⟩ | ⟨v, v', rfl, rfl, hnear⟩
  · exact hb
  · exact .inr ⟨v, v', rfl, rfl, hnear⟩

end Values

/-! ### The environment -/

/-- The names of the variables that hold a proxy. -/
def variableNames : List String :=
  ["npm_config_http_proxy", "npm_config_https_proxy", "http_proxy", "https_proxy",
    "npm_config_proxy", "all_proxy"]

/-- The variables that hold a proxy, in lower and in upper case. -/
def proxyVariables : List String := variableNames ++ variableNames.map String.toUpper

end Proxy

open Proxy

/-- The hosts are the same but for passwords in variables that hold a proxy. -/
structure Host.SameButPasswords (h h' : Host) : Prop where
  os : h.os = h'.os
  machine : h.machine = h'.machine
  get? : ∀ name, h.get? name = h'.get? name ∨ name ∈ proxyVariables ∧
    ∃ v v', h.get? name = some v ∧ h'.get? name = some v' ∧ SameButPassword v v'

namespace Host.SameButPasswords

variable {h h' : Host}

theorem isWindows (hh : h.SameButPasswords h') : h.isWindows = h'.isWindows := by
  rw [Host.isWindows, Host.isWindows, system, system, hh.os]

theorem nonEmpty? (hh : h.SameButPasswords h') (name : String) :
    NearOrNone (h.nonEmpty? name) (h'.nonEmpty? name) := by
  rw [Host.nonEmpty?, Host.nonEmpty?]
  rcases hh.get? name with heq | ⟨-, v, v', hv, hv', hsame⟩
  · rw [heq]
    exact .refl _
  · obtain ⟨hne, hne'⟩ := hsame.ne_empty
    refine .inr ⟨v, v', ?_, ?_, .inr hsame⟩
    · rw [hv, Option.filter_some, if_pos (by simpa using hne)]
    · rw [hv', Option.filter_some, if_pos (by simpa using hne')]

theorem firstSet? (hh : h.SameButPasswords h') (names : List String) :
    NearOrNone (h.firstSet? names) (h'.firstSet? names) := by
  unfold Host.firstSet?
  induction names with
  | nil => exact .refl _
  | cons name rest ih =>
      rw [List.findSome?_cons, List.findSome?_cons]
      rcases hh.nonEmpty? name with ⟨hv, hv'⟩ | ⟨v, v', hv, hv', hnear⟩
      · rw [hv, hv']
        exact ih
      · rw [hv, hv']
        exact .inr ⟨v, v', rfl, rfl, hnear⟩

/-- Other variables have the same values. -/
theorem nonEmpty?_eq (hh : h.SameButPasswords h') {name : String} (hname : name ∉ proxyVariables) :
    h.nonEmpty? name = h'.nonEmpty? name := by
  rw [Host.nonEmpty?, Host.nonEmpty?,
    (hh.get? name).resolve_right fun hdiffer => hname hdiffer.1]

theorem firstSet?_eq (hh : h.SameButPasswords h') {names : List String}
    (hnames : ∀ name ∈ names, name ∉ proxyVariables) : h.firstSet? names = h'.firstSet? names :=
  firstSet?_congr fun name hname => hh.nonEmpty?_eq (hnames name hname)

end Host.SameButPasswords

namespace Proxy

variable {h h' : Host}

/-! ### The choice of a proxy -/

theorem eitherVariable?_near (hh : h.SameButPasswords h') (first second : String) :
    NearOrNone (eitherVariable? h first second) (eitherVariable? h' first second) :=
  .or (hh.firstSet? _) (hh.firstSet? _)

/-- The exceptions are the same. -/
theorem exceptions?_eq (hh : h.SameButPasswords h') : exceptions? h = exceptions? h' := by
  have hnamed (name : String) (hname : ∀ n ∈ [name.toLower, name.toUpper], n ∉ proxyVariables) :
      named? h name = named? h' name := hh.firstSet?_eq hname
  rw [exceptions?, exceptions?, eitherVariable?, eitherVariable?,
    hnamed "npm_config_no_proxy" (by decide +kernel), hnamed "no_proxy" (by decide +kernel)]

/-- The fields have the same names, and values that differ in passwords only. -/
def FieldsNear (xs ys : List (String × String)) : Prop :=
  List.Forall₂ (fun x y => x.1 = y.1 ∧ Near x.2 y.2) xs ys

theorem FieldsNear.lookup {xs ys : List (String × String)} (h : FieldsNear xs ys) (name : String) :
    NearOrNone (xs.lookup name) (ys.lookup name) := by
  induction h with
  | nil => exact .refl _
  | @cons x y xs ys hxy hrest ih =>
      obtain ⟨n, v⟩ := x
      obtain ⟨n', v'⟩ := y
      obtain ⟨rfl, hnear⟩ := hxy
      simp only [List.lookup_cons]
      split
      · exact .inr ⟨v, v', rfl, rfl, hnear⟩
      · exact ih

/-- A field with a value that is near. -/
theorem FieldsNear.field (name : String) {v v' : Option String} (hv : NearOrNone v v') :
    FieldsNear (v.map (name, ·)).toList (v'.map (name, ·)).toList := by
  rcases hv with ⟨rfl, rfl⟩ | ⟨a, a', rfl, rfl, hnear⟩
  · exact .nil
  · exact .cons ⟨rfl, hnear⟩ .nil

/-- The environments name the same proxies but for the passwords in them. -/
theorem configured_near (hh : h.SameButPasswords h') :
    FieldsNear (configured h) (configured h') := by
  have hconfigured (h : Host) : configured h =
      ((ofScheme? h "http").map ("http", ·)).toList ++
        (((ofScheme? h "https").map ("https", ·)).toList ++
          ((fallback? h).map ("all", ·)).toList) := by
    simp only [configured, defaultPorts, List.map_cons, List.map_nil, List.filterMap_cons,
      List.filterMap_nil]
    cases ofScheme? h "http" <;> cases ofScheme? h "https" <;> rfl
  rw [hconfigured, hconfigured]
  exact List.rel_append (FieldsNear.field "http" (eitherVariable?_near hh _ _))
    (List.rel_append (FieldsNear.field "https" (eitherVariable?_near hh _ _))
      (FieldsNear.field "all" (eitherVariable?_near hh _ _)))

theorem ofConfigured_paired (hh : h.SameButPasswords h') {scheme : String}
    (hscheme : Url.IsScheme scheme.toList) :
    (ofConfigured h scheme).Paired (ofConfigured h' scheme) := by
  have hlookup := ((configured_near hh).lookup scheme).or ((configured_near hh).lookup "all")
  unfold ofConfigured
  rcases hlookup with ⟨hv, hv'⟩ | ⟨v, v', hv, hv', hnear⟩
  · simp only [hv, hv']
    exact .inl rfl
  · simp only [hv, hv']
    rcases hnear with rfl | hsame
    · exact .inl rfl
    · exact .inr ⟨_, _, rfl, rfl, hsame.completed hscheme⟩

/-- **The proxy of a URL** is the same but for its password, or cannot be chosen for the same
reason. -/
theorem choose_masked (hh : h.SameButPasswords h') (url : String) :
    (∃ f, choose h url = .error f ∧ choose h' url = .error f) ∨
      ∃ a a', choose h url = .ok a ∧ choose h' url = .ok a' ∧ a.Paired a' := by
  unfold choose
  cases hurl : Url.ofText url with
  | error f => exact .inl ⟨f, rfl, rfl⟩
  | ok u =>
      simp only [← exceptions?_eq hh]
      split
      · exact .inr ⟨_, _, rfl, rfl, .inl rfl⟩
      · next hnamed =>
        -- a URL that takes a proxy names a scheme
        have hscheme : Url.IsScheme (String.ofList u.scheme).toList := by
          rw [String.toList_ofList]
          refine (Url.isScheme_of_ofText hurl).resolve_left fun hnil => hnamed ?_
          simp [hnil]
        have hpaired := ofConfigured_paired hh hscheme
        split
        · exact .inl ⟨_, rfl, rfl⟩
        · split
          · exact .inr ⟨_, _, rfl, rfl, hpaired⟩
          · split
            · exact .inl ⟨_, rfl, rfl⟩
            · exact .inr ⟨_, _, rfl, rfl, .inl rfl⟩
            · exact .inr ⟨_, _, rfl, rfl, hpaired⟩

end Proxy

end ReleaseFetch
