/-
**A URL with a login.**

Between a scheme and a host, an authority may name a user and a password.  Where the user holds no
colon, and neither of the two holds a mark that ends the authority or a bracket, the URL is read
back as it was put together: whether it can be read, and which host and port it names, depends on
what stands behind the last `@` and not on the password.

Main definitions:

* `ReleaseFetch.Text.IsFreeOf` — printable ASCII texts without some characters;
* `ReleaseFetch.Url.Login`, `ReleaseFetch.Url.loginChars` — a user, a password and a host.

Main results:

* `ReleaseFetch.Url.Login.ofText` — a URL with a login is read back;
* `ReleaseFetch.Url.Login.userInfo`, `ReleaseFetch.Url.Login.hostInfo` — its parts.
-/

import ReleaseFetch.Proofs.Url.Reading

set_option autoImplicit false

namespace ReleaseFetch

open Text

/-- A text of printable ASCII characters, none of which is among those that are named. -/
def Text.IsFreeOf (without : List Char) (s : String) : Prop :=
  ∀ c ∈ s.toList, (0x20 ≤ c.toNat ∧ c.toNat < 0x7f) ∧ c ∉ without

-- Over the list: there is an instance for `∀ c : Char` too, which runs through all characters.
instance (without : List Char) (s : String) : Decidable (IsFreeOf without s) :=
  List.decidableBAll _ s.toList

theorem Text.IsFreeOf.notMem {without : List Char} {s : String} (h : IsFreeOf without s) {c : Char}
    (hc : c ∈ without) : c ∉ s.toList := fun hmem => (h c hmem).2 hc

namespace Url

/-! ### Logins -/

/-- A user, a password and a host that can be read from a URL. -/
structure Login (user password host : String) : Prop where
  user : IsFreeOf [':', '/', '?', '#', '@', '[', ']'] user
  password : IsFreeOf ['/', '?', '#', '[', ']'] password
  host : IsFreeOf ['/', '?', '#', '@'] host

/-- The authority that they make. -/
def loginChars (user password host : String) : List Char :=
  user.toList ++ ':' :: password.toList ++ '@' :: host.toList

namespace Login

variable {user password host : String}

/-- A character of a part is a character of an authority. -/
theorem isAuthority_of_isFreeOf {without : List Char} {s : String} (h : IsFreeOf without s)
    (hwithout : ∀ d ∈ ['/', '?', '#'], d ∈ without) : IsAuthority s.toList := by
  intro c hc
  obtain ⟨⟨hlow, hhigh⟩, hout⟩ := h c hc
  refine ⟨Nat.lt_succ_of_lt hhigh, ?_, ?_⟩
  · simp only [isLineOrTab, Bool.or_eq_false_iff, beq_eq_false_iff_ne]
    refine ⟨⟨?_, ?_⟩, ?_⟩
    all_goals
      rintro rfl
      revert hlow
      decide
  · simp only [endsAuthority, Bool.or_eq_false_iff, beq_eq_false_iff_ne]
    refine ⟨⟨?_, ?_⟩, ?_⟩
    all_goals
      rintro rfl
      exact hout (hwithout _ (by decide))

/-- A login and a host make an authority. -/
theorem isAuthority (h : Login user password host) : IsAuthority (loginChars user password host) := by
  intro c hc
  rw [loginChars, List.append_assoc, List.mem_append, List.cons_append, List.mem_cons,
    List.mem_append, List.mem_cons] at hc
  rcases hc with hc | rfl | hc | rfl | hc
  · exact isAuthority_of_isFreeOf h.user (by simp) c hc
  · unfold IsAscii
    decide
  · exact isAuthority_of_isFreeOf h.password (by simp) c hc
  · unfold IsAscii
    decide
  · exact isAuthority_of_isFreeOf h.host (by simp) c hc

/-- What stands behind the last `@` is the host. -/
theorem hostAndPort (h : Login user password host) :
    hostAndPort (loginChars user password host) = host.toList :=
  afterLast_append _ (h.host.notMem (by decide))

theorem hostAndPort_host (h : Login user password host) : Url.hostAndPort host.toList = host.toList :=
  afterLast_of_notMem (h.host.notMem (by decide))

/-- The brackets of the authority are those of the host. -/
theorem bracketsFault (h : Login user password host) :
    bracketsFault? (loginChars user password host) = bracketsFault? host.toList := by
  have hmarks : ∀ c ∈ ['[', ']'], c ∈ [':', '/', '?', '#', '@', '[', ']'] ∧
      c ∈ ['/', '?', '#', '[', ']'] ∧ c ≠ ':' ∧ c ≠ '@' := by simp
  have hcontains (c : Char) (hc : c ∈ ['[', ']']) :
      (loginChars user password host).contains c = host.toList.contains c := by
    obtain ⟨huser, hpassword, hcolon, hat⟩ := hmarks c hc
    simp [loginChars, h.user.notMem huser, h.password.notMem hpassword, hcolon, hat]
  unfold bracketsFault?
  rw [hcontains '[' (by decide), hcontains ']' (by decide), h.hostAndPort, h.hostAndPort_host]

/-- **A URL with a login is read back**, unless the host has brackets and is no address. -/
theorem ofText (h : Login user password host) {scheme : List Char} (hscheme : IsScheme scheme)
    {s : String} (hs : s.toList = scheme ++ ':' :: '/' :: '/' :: loginChars user password host) :
    Url.ofText s = match bracketsFault? host.toList with
      | some fault => .error (.badValue fault)
      | none => .ok ⟨scheme.map Char.toLower, loginChars user password host, [], [], [], []⟩ := by
  rw [← h.bracketsFault]
  exact ofText_authority hscheme h.isAuthority (.inl rfl) (by rw [hs, List.append_nil])

/-- The user and the password are read back. -/
theorem userInfo (h : Login user password host) {u : Url}
    (hu : u.authority = loginChars user password host) :
    u.userInfo? = some (user.toList, some password.toList) := by
  have hcut : cutLast? '@' (loginChars user password host) =
      some (user.toList ++ ':' :: password.toList, host.toList) :=
    cutLast?_eq_some_iff.2 ⟨rfl, h.host.notMem (by decide)⟩
  have hinfo : cutFirst? ':' (user.toList ++ ':' :: password.toList) =
      some (user.toList, password.toList) :=
    cutFirst?_eq_some_iff.2 ⟨rfl, h.user.notMem (by decide)⟩
  rw [userInfo?, hu, hcut, Option.map_some]
  simp only [hinfo]

/-- **The host and the port are those of the host alone.** -/
theorem hostInfo (h : Login user password host) {u v : Url}
    (hu : u.authority = loginChars user password host) (hv : v.authority = host.toList) :
    u.hostInfo = v.hostInfo := by
  rw [Url.hostInfo, Url.hostInfo, hu, hv, h.hostAndPort, h.hostAndPort_host]

end Login

end Url

end ReleaseFetch
