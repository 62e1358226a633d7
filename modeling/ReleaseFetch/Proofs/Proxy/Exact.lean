/-
**A host that is named as it is.**

A list of exceptions that has the host of a URL as its only entry names that host, whatever the host
looks like, unless the end of the host is taken for a port.  An entry is cut at its last colon
before it is compared, and an address in brackets has colons of its own: where digits stand behind
the last of them, what is compared is a part of the address, and the URL is not excepted.

Main definitions:

* `ReleaseFetch.Proxy.EndsInPort` — digits behind the last colon of an entry.

Main results:

* `ReleaseFetch.Url.first_of_colon` — how a host with a colon begins;
* `ReleaseFetch.Proxy.anyCovers_self`, `ReleaseFetch.Proxy.anyCovers_self_ported` — an entry that is
  the host;
* `ReleaseFetch.Proxy.forUrl_itself` — the proxy of a URL whose host is the only exception.
-/

import ReleaseFetch.Proofs.Proxy.Exceptions
import ReleaseFetch.Proofs.Proxy.Precedence
import ReleaseFetch.Proofs.Url.Host

set_option autoImplicit false

namespace ReleaseFetch

open Text Session

/-! ### Colons in lower case -/

namespace Text

theorem colon_notMem_smallLetters {c : Char} (hc : c ≠ ':') (before rest : List Char) :
    ':' ∉ smallLetters before c rest := by
  have hcolon : IsAscii ':' := by
    unfold IsAscii
    decide
  by_cases hascii : IsAscii c
  · rw [smallLetters_ascii hascii, List.mem_singleton]
    exact IsAscii.all (P := fun c => c ≠ ':' → ':' ≠ c.toLower) (by decide) hascii hc
  · refine fun hmem => forall_mem_smallLetters (P := (· ≠ ':')) (by decide) ?_ before rest ':' hmem rfl
    intro _ _ heq
    by_cases hkelvin : c = kelvin
    · subst hkelvin
      exact absurd heq (by decide)
    · exact not_isAscii_smallLetter hascii hkelvin (heq ▸ hcolon)

/-- A colon in lower case was a colon. -/
theorem colon_of_mem_lowerFrom {b cs : List Char} (h : ':' ∈ lowerFrom b cs) : ':' ∈ cs := by
  induction cs generalizing b with
  | nil => cases h
  | cons c rest ih =>
      rw [lowerFrom_cons, List.mem_append] at h
      rcases h with hsmall | hrest
      · by_cases hc : c = ':'
        · exact hc ▸ List.mem_cons_self
        · exact absurd hsmall (colon_notMem_smallLetters hc b rest)
      · exact List.mem_cons_of_mem c (ih hrest)

/-- The lower case of an ASCII character comes first in that of a text that begins with it. -/
theorem lowerFrom_first {c : Char} (hc : IsAscii c) (b rest : List Char) :
    ∃ more, lowerFrom b (c :: rest) = c.toLower :: more := by
  refine ⟨lowerFrom (c :: b) rest, ?_⟩
  rw [lowerFrom_cons, smallLetters_ascii hc]
  rfl

end Text

/-! ### Addresses in brackets -/

namespace Url

/-- The first characters of addresses that may stand in brackets. -/
def beginsAddress (c : Char) : Bool := isHexDigit c || c == ':' || c == 'v'

theorem bracketsFault?_of_ofText {s : String} {u : Url} (h : ofText s = .ok u) :
    bracketsFault? u.authority = none := by
  unfold ofText ofTextWith at h
  simp only at h
  split at h
  · cases h
  · next hbrackets =>
    split at h
    · cases h
    · obtain rfl := Except.ok.inj h
      exact hbrackets

/-- The groups of an address begin with its first character, which is a digit or a colon. -/
theorem begins_of_isIpv6Body {cs : List Char} (h : isIpv6Body cs = true) :
    ∃ c rest, cs = c :: rest ∧ beginsAddress c = true := by
  unfold isIpv6Body at h
  obtain ⟨hmany, hparts⟩ := Bool.and_eq_true_iff.1 h
  cases cs with
  | nil => exact absurd hmany (by decide)
  | cons c rest =>
      refine ⟨c, rest, rfl, ?_⟩
      by_cases hc : c = ':'
      · simp [beginsAddress, hc]
      -- otherwise the first group is not empty, and it is a group wherever the double colon stands
      obtain ⟨p, ps, hpieces⟩ := List.exists_cons_of_ne_nil (pieces_ne_nil ':' rest)
      have hfirst : pieces ':' (c :: rest) = (c :: p) :: ps := by
        rw [pieces, if_neg hc, hpieces]
      rw [hfirst] at hmany
      have hgroup {group : List Char} (hg : isGroup (c :: group) = true) : beginsAddress c = true := by
        have hhex : isHexDigit c = true := by
          simp only [isGroup, List.all_cons, Bool.and_eq_true] at hg
          exact hg.2.1
        simp [beginsAddress, hhex]
      have hall : ∃ more, ipv6Parts (c :: rest) = some ((c :: p) :: more) ∨
          ipv6Parts (c :: rest) = none := by
        obtain ⟨q, qs, rfl⟩ : ∃ q qs, ps = q :: qs :=
          List.exists_cons_of_ne_nil fun hnil => by simp [hnil] at hmany
        unfold ipv6Parts
        simp only [hfirst]
        split
        · split
          · split
            · exact ⟨_, .inl rfl⟩
            · exact ⟨[], .inr rfl⟩
          · exact ⟨_, .inl rfl⟩
        · exact ⟨[], .inr rfl⟩
      obtain ⟨more, hall | hnone⟩ := hall
      · rw [hall] at hparts
        simp only at hparts
        split at hparts
        · obtain ⟨-, hgroups⟩ := Bool.and_eq_true_iff.1 hparts
          exact hgroup (List.all_eq_true.1 hgroups _ List.mem_cons_self)
        · next i hi =>
          obtain ⟨-, hgroups⟩ := Bool.and_eq_true_iff.1 hparts
          refine hgroup (List.all_eq_true.1 hgroups (c :: p) ?_)
          rw [List.take_succ_cons, sideGroups, if_neg (by simp)]
          simp
      · rw [hnone] at hparts
        cases hparts

theorem begins_of_isIpv6 {cs : List Char} (h : isIpv6 cs = true) :
    ∃ c rest, cs = c :: rest ∧ beginsAddress c = true := by
  unfold isIpv6 at h
  split at h
  · exact begins_of_isIpv6Body h
  · next body zone hcut =>
    obtain ⟨rfl, -⟩ := cutFirst?_eq_some_iff.1 hcut
    obtain ⟨c, rest, rfl, hc⟩ := begins_of_isIpv6Body (Bool.and_eq_true_iff.1 h).2
    exact ⟨c, rest ++ '%' :: zone, rfl, hc⟩

theorem begins_of_bracketFault? {host : List Char} (h : bracketFault? host = none) :
    ∃ c rest, host = c :: rest ∧ beginsAddress c = true := by
  unfold bracketFault? at h
  split at h
  · next hv =>
    cases host with
    | nil => cases hv
    | cons c rest =>
        obtain rfl : c = 'v' := by simpa using hv
        exact ⟨'v', rest, rfl, rfl⟩
  · split at h
    · cases h
    · split at h
      · next haddress => exact begins_of_isIpv6 haddress
      · cases h

/-- A host with a colon is an address in brackets. -/
theorem bracketFault?_of_colon {u : Url} (h : bracketsFault? u.authority = none)
    (hcolon : ':' ∈ u.hostInfo.1) : bracketFault? u.hostInfo.1 = none := by
  by_cases hbracket : '[' ∈ hostAndPort u.authority
  · obtain ⟨inside, hinside⟩ := hostAndPort_of_bracket h hbracket
    have hcut : cutFirst? '[' (hostAndPort u.authority) = some ([], inside) :=
      cutFirst?_eq_some_iff.2 ⟨hinside, List.not_mem_nil⟩
    have hhost : u.hostInfo.1 = ((cutFirst? ']' inside).getD (inside, [])).1 := by
      unfold hostInfo
      simp only [hcut]
      rfl
    have hmem : '[' ∈ u.authority := by
      unfold hostAndPort at hbracket
      by_cases hat : '@' ∈ u.authority
      · obtain ⟨front, heq, -⟩ := exists_afterLast hat
        rw [heq]
        simp [hbracket]
      · rwa [afterLast_of_notMem hat] at hbracket
    rw [hhost]
    unfold bracketsFault? at h
    simp only [hcut] at h
    grind
  · rw [hostInfo_fst hbracket] at hcolon
    exact absurd (List.mem_takeWhile_imp hcolon) (by decide)

theorem isAscii_of_beginsAddress {c : Char} (h : beginsAddress c = true) : IsAscii c := by
  simp only [beginsAddress, isHexDigit, Bool.or_eq_true, Bool.and_eq_true, decide_eq_true_eq,
    beq_iff_eq, Char.le_def, UInt32.le_iff_toNat_le] at h
  rcases h with (((h | h) | h) | rfl) | rfl
  · exact Nat.lt_of_le_of_lt h.2 (by decide)
  · exact Nat.lt_of_le_of_lt h.2 (by decide)
  · exact Nat.lt_of_le_of_lt h.2 (by decide)
  · unfold IsAscii
    decide
  · unfold IsAscii
    decide

/-- What an address begins with is no mark of an ending, in lower case either. -/
theorem beginsAddress_spec {c : Char} (h : beginsAddress c = true) :
    c ≠ '%' ∧ IsAscii c.toLower ∧ c.toLower.toLower ≠ '*' ∧ c.toLower.toLower ≠ '.' := by
  have hascii := isAscii_of_beginsAddress h
  obtain ⟨hpercent, hstar, hdot⟩ := IsAscii.all (P := fun c => beginsAddress c = true →
    c ≠ '%' ∧ c.toLower.toLower ≠ '*' ∧ c.toLower.toLower ≠ '.') (by decide +kernel) hascii h
  exact ⟨hpercent, hascii.toLower, hstar, hdot⟩

/-- A host is in lower case up to its zone, and begins as it does in the URL. -/
theorem first_of_hostname? {u : Url} {name : List Char} (hname : u.hostname? = some name) {c : Char}
    {rest : List Char} (hhost : u.hostInfo.1 = c :: rest) (hc : beginsAddress c = true) :
    ∃ more, name = c.toLower :: more := by
  have hascii := isAscii_of_beginsAddress hc
  unfold hostname? at hname
  simp only [hhost, List.isEmpty_cons, Bool.false_eq_true, if_false] at hname
  split at hname
  · next front zone hcut =>
    obtain ⟨heq, -⟩ := cutFirst?_eq_some_iff.1 hcut
    cases front with
    | nil => exact absurd (List.cons.inj heq).1 (beginsAddress_spec hc).1
    | cons d front =>
        obtain ⟨rfl, -⟩ := List.cons.inj heq
        obtain ⟨more, hmore⟩ := lowerFrom_first hascii [] front
        refine ⟨more ++ '%' :: zone, ?_⟩
        rw [← Option.some.inj hname, lowerChars, hmore]
        rfl
  · obtain ⟨more, hmore⟩ := lowerFrom_first hascii [] rest
    exact ⟨more, (Option.some.inj hname).symm.trans hmore⟩

/-- A colon of a host in lower case is one of the URL. -/
theorem colon_of_hostname? {u : Url} {name : List Char} (hname : u.hostname? = some name)
    (hcolon : ':' ∈ name) : ':' ∈ u.hostInfo.1 := by
  unfold hostname? at hname
  simp only at hname
  split at hname
  · cases hname
  · split at hname
    · next front zone hcut =>
      obtain ⟨heq, -⟩ := cutFirst?_eq_some_iff.1 hcut
      obtain rfl := Option.some.inj hname
      rw [heq, List.mem_append]
      exact (List.mem_append.1 hcolon).imp_left colon_of_mem_lowerFrom
    · obtain rfl := Option.some.inj hname
      exact colon_of_mem_lowerFrom hcolon

/-- **A host with a colon begins with no mark of an ending.** -/
theorem first_of_colon {s : String} {u : Url} {name : List Char} (hurl : ofText s = .ok u)
    (hname : u.hostname? = some name) (hcolon : ':' ∈ lowerChars name) :
    ∃ c rest, lowerChars name = c :: rest ∧ c ≠ '*' ∧ c ≠ '.' := by
  have hhost := colon_of_hostname? hname (colon_of_mem_lowerFrom hcolon)
  obtain ⟨c, rest, hfirst, hc⟩ :=
    begins_of_bracketFault? (bracketFault?_of_colon (bracketsFault?_of_ofText hurl) hhost)
  obtain ⟨more, rfl⟩ := first_of_hostname? hname hfirst hc
  obtain ⟨-, hascii, hstar, hdot⟩ := beginsAddress_spec hc
  obtain ⟨more', hmore'⟩ := lowerFrom_first hascii [] more
  exact ⟨c.toLower.toLower, more', hmore', hstar, hdot⟩

end Url

namespace Proxy

/-! ### An entry that is the host -/

/-- **Digits of any kind behind the last colon of an entry**: they are taken for a port. -/
structure EndsInPort (cs host digits : List Char) : Prop where
  cut : cs = host ++ ':' :: digits
  ne_nil : digits ≠ []
  isDigit : ∀ c ∈ digits, isDigit c = true

section Itself

variable {cs host digits : List Char} {port : Int}

/-- Digits after the last colon are a port, whatever script they are in. -/
theorem EndsInPort.ofChars (h : EndsInPort cs host digits) : Entry.ofChars cs = ⟨host, digits⟩ := by
  have hcolon : ':' ∉ digits := fun hmem => absurd (h.isDigit ':' hmem) (by decide +kernel)
  have hcut : cutLast? ':' cs = some (host, digits) := cutLast?_eq_some_iff.2 ⟨h.cut, hcolon⟩
  have hsome : digits.isEmpty = false := by simpa using h.ne_nil
  rw [Entry.ofChars, hcut]
  simp [hsome, List.all_eq_true.2 h.isDigit]

/-- Every other entry is a host. -/
theorem ofChars_of_not_endsInPort (h : ∀ host digits, ¬EndsInPort cs host digits) :
    Entry.ofChars cs = ⟨cs, []⟩ := by
  unfold Entry.ofChars
  split
  · next host digits hcut =>
    obtain ⟨heq, -⟩ := cutLast?_eq_some_iff.1 hcut
    split
    · next hdigits =>
      obtain ⟨hne, hall⟩ := Bool.and_eq_true_iff.1 hdigits
      exact absurd ⟨heq, by simpa using hne, List.all_eq_true.1 hall⟩ (h host digits)
    · rfl
  · rfl

/-- A host is one of its own hosts, with a mark of an ending in front or without. -/
theorem reaches_self (cs : List Char) : Reaches cs cs := by
  by_cases hstar : ∃ rest, cs = '*' :: rest
  · obtain ⟨rest, rfl⟩ := hstar
    exact .star (List.suffix_cons '*' rest)
  · by_cases hdot : ∃ rest, cs = '.' :: rest
    · obtain ⟨rest, rfl⟩ := hdot
      exact .dot (List.suffix_refl _)
    · exact .same (fun rest heq => hstar ⟨rest, heq⟩) (fun rest heq => hdot ⟨rest, heq⟩) rfl

/-- **An entry names itself** unless it ends like one with a port. -/
theorem anyCovers_self (h : ∀ host digits, ¬EndsInPort cs host digits) (port : Int) :
    anyCovers cs port [cs] = .ok true := by
  by_cases hall : cs = ['*']
  · rw [anyCovers, if_pos (by simp [hall])]
  · rw [anyCovers_entry hall (ofChars_of_not_endsInPort h) rfl, Bool.true_and,
      coversHost_iff.2 (reaches_self cs)]

/-- What stands before its last colon is not the entry. -/
theorem coversHost_front {c : Char} {rest : List Char} (h : EndsInPort cs host digits)
    (hfirst : cs = c :: rest) (hstar : c ≠ '*') (hdot : c ≠ '.') :
    Entry.coversHost ⟨host, digits⟩ cs = false := by
  refine Bool.eq_false_iff.2 fun hcovers => ?_
  -- the front begins as the entry does, or is empty, so it names one host only
  have hfront {d : Char} {front : List Char} (heq : host = d :: front) : d = c := by
    have hcut := h.cut
    rw [hfirst, heq, List.cons_append] at hcut
    exact (List.cons.inj hcut).1.symm
  cases coversHost_iff.1 hcovers with
  | star => exact hstar (hfront rfl).symm
  | dot => exact hdot (hfront rfl).symm
  | same _ _ heq =>
      have hlength := congrArg List.length (heq.symm.trans h.cut)
      rw [List.length_append, List.length_cons] at hlength
      omega

/-- **An entry that ends like one with a port does not name itself**: the digits are read, and then
only a part of the entry is compared. -/
theorem anyCovers_self_ported {c : Char} {rest : List Char} (h : EndsInPort cs host digits)
    (hfirst : cs = c :: rest) (hstar : c ≠ '*') (hdot : c ≠ '.') (port : Int) :
    anyCovers cs port [cs] =
      match Numeral.integer 10 (String.ofList digits) with
      | .ok _ => .ok false
      | .error f => .error (.badValue f.text) := by
  have hall : cs ≠ ['*'] := by
    rintro rfl
    exact hstar (List.cons.inj hfirst).1.symm
  have hbeq : (cs == ['*']) = false := by simpa using hall
  have hsome : digits.isEmpty = false := by simpa using h.ne_nil
  have hport : Entry.coversPort ⟨host, digits⟩ port =
      match Numeral.integer 10 (String.ofList digits) with
      | .ok n => .ok (n == port)
      | .error f => .error (.badValue f.text) :=
    if_neg (by simp [hsome])
  cases hread : Numeral.integer 10 (String.ofList digits) with
  | error f =>
      simp only [anyCovers, hbeq, Bool.false_eq_true, if_false, h.ofChars, hport, hread]
  | ok n =>
      rw [hread] at hport
      rw [anyCovers_entry hall h.ofChars hport, coversHost_front h hfirst hstar hdot,
        Bool.and_false]

end Itself

/-! ### The proxy of a URL that is the only exception -/

section Only

variable {url scheme : String} {u : Url} {name : List Char} {port? : Option Nat} {h : Host}
  {list : String}

/-- **The host of a URL as the only exception.**  Whatever proxies are named, none is taken for the
URL, unless digits stand behind the last colon of its host, which is an address in brackets then:
they are taken for a port, and the URL goes the way that it goes without exceptions, or the digits
cannot be read at all. -/
theorem forUrl_itself (hscheme : scheme = "http" ∨ scheme = "https")
    (hurl : Url.ofText url = .ok u) (hu : u.scheme = scheme.toList)
    (hname : u.hostname? = some name) (hport : u.port? = .ok port?)
    (hlist : h.First exceptionOrder list) (honly : written list = [name]) (w : World) :
    ((∀ host digits, ¬EndsInPort (Url.lowerChars name) host digits) →
      ((forUrl h url).perform w).1 = .ok none) ∧
    ∀ host digits, EndsInPort (Url.lowerChars name) host digits →
      match Numeral.integer 10 (String.ofList digits) with
      | .ok _ => ∃ proxy, Routed h scheme proxy ∧ ((forUrl h url).perform w).1 = .ok proxy
      | .error f => ((forUrl h url).perform w).1 = .error (.badValue f.text) := by
  have hresult : ((forUrl h url).perform w).1 = (choose h url).map Choice.proxy? :=
    (forUrl_yields h url).eq rfl
  have hchoose := choose_listed hscheme hurl hu hname hport (Host.firstSet?_eq_some_iff.2 hlist)
  have hexcepts : excepts list (String.ofList (Url.lowerChars name)) (portOf scheme port?) =
      anyCovers (Url.lowerChars name) (portOf scheme port?) [Url.lowerChars name] := by
    rw [excepts, String.toList_ofList, entries_eq, honly]
    rfl
  rw [hresult, hchoose, hexcepts]
  constructor
  · intro hplain
    rw [anyCovers_self hplain]
    rfl
  · intro host digits hported
    have hcolon : ':' ∈ Url.lowerChars name := by
      rw [hported.cut]
      simp
    obtain ⟨c, rest, hfirst, hstar, hdot⟩ := Url.first_of_colon hurl hname hcolon
    rw [anyCovers_self_ported hported hfirst hstar hdot]
    cases Numeral.integer 10 (String.ofList digits) with
    | error f => rfl
    | ok n => exact ⟨_, routed_ofConfigured hscheme h, rfl⟩

end Only

/-- An environment with proxies for all schemes, in which a list of exceptions is set. -/
def listingHost (list : String) : Host :=
  ⟨"linux", "x86_64", [("https_proxy", "proxy.b.org:3128"), ("all_proxy", "http://other.b.org"),
    ("npm_config_no_proxy", ""), ("NO_PROXY", list)]⟩

/-- An address with a zone is an exception by itself, in the letters that the URL is found to have.
-/
theorem forUrl_itself_zoned :
    ((forUrl (listingHost " fe80::1%Eth0,") "https://[FE80::1%Eth0]:8443/x").perform
      (World.fresh ⟨[], []⟩ [])).1 = .ok none := by
  let u : Url := ⟨"https".toList, "[FE80::1%Eth0]:8443".toList, "/x".toList, [], [], []⟩
  have hurl : Url.ofText "https://[FE80::1%Eth0]:8443/x" = .ok u := by decide +kernel
  have hname : u.hostname? = some "fe80::1%Eth0".toList := by decide +kernel
  have hport : u.port? = .ok (some 8443) := by decide +kernel
  have hlist : (listingHost " fe80::1%Eth0,").First exceptionOrder " fe80::1%Eth0," :=
    Host.firstSet?_eq_some_iff.1 (by decide +kernel)
  have honly : written " fe80::1%Eth0," = ["fe80::1%Eth0".toList] := by decide +kernel
  refine (forUrl_itself (.inr rfl) hurl rfl hname hport hlist honly (World.fresh ⟨[], []⟩ [])).1 ?_
  intro host digits hported
  -- what stands behind the last colon is no number
  have hcut : Entry.ofChars (Url.lowerChars "fe80::1%Eth0".toList) =
      ⟨"fe80::1%eth0".toList, []⟩ := by decide +kernel
  rw [hported.ofChars] at hcut
  exact hported.ne_nil (Entry.mk.inj hcut).2

/-- **An address that ends in digits is no exception**, though it is the only entry of the list. -/
theorem forUrl_misses_itself :
    (Url.ofText "https://[::1]/x").map Url.hostname? = .ok (some "::1".toList) ∧
      (listingHost "::1").firstSet? exceptionOrder = some "::1" ∧
      written "::1" = ["::1".toList] ∧
      ((forUrl (listingHost "::1") "https://[::1]/x").perform (World.fresh ⟨[], []⟩ [])).1 =
        .ok (some "https://proxy.b.org:3128") := by
  decide +kernel

end Proxy

end ReleaseFetch
