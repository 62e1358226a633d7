/-
**The host of a URL, read twice.**

Headers are scoped by the host that a URL is found to name here.  The client that sends the request
reads the URL once more, and to it a backslash ends the authority as well.  This module says for
which URLs that name a domain here the client finds the same one.

Main definitions:

* `ReleaseFetch.IsDomain` — plain domain names;
* `ReleaseFetch.Client.hostOf?`, `ReleaseFetch.Client.Addresses` — the host that the client
  addresses;
* `ReleaseFetch.Url.Agrees`, `ReleaseFetch.Url.Unambiguous` — where the two readings agree;
* `ReleaseFetch.Url.misleading` — a URL on which they differ.

Main results:

* `ReleaseFetch.Url.hostIn_iff`, `ReleaseFetch.Url.addresses_iff` — when the client addresses the
  domain that a URL names here;
* `ReleaseFetch.Url.hostOf_misleading`, `ReleaseFetch.Url.addresses_misleading` — any two domains
  can be confused.
-/

import ReleaseFetch.Http.Client
import ReleaseFetch.Proofs.Url.Reading

set_option autoImplicit false

namespace ReleaseFetch

open Text

/-! ### Plain domain names -/

/-- A letter, a digit, a dash or a dot. -/
def isDomainChar (c : Char) : Bool :=
  Url.isLetter c || ('0' ≤ c && c ≤ '9') || c == '-' || c == '.'

/-- A plain domain name. -/
def IsDomain (s : String) : Prop := s ≠ "" ∧ s.toList.all isDomainChar = true

instance (s : String) : Decidable (IsDomain s) := inferInstanceAs (Decidable (_ ∧ _))

theorem IsDomain.all_chars {s : String} (h : IsDomain s) {c : Char} (hc : c ∈ s.toList) :
    isDomainChar c = true :=
  List.all_eq_true.1 h.2 c hc

theorem isAscii_of_isDomainChar {c : Char} (h : isDomainChar c = true) : IsAscii c := by
  simp only [isDomainChar, Url.isLetter, Bool.or_eq_true, Bool.and_eq_true, decide_eq_true_eq,
    beq_iff_eq, Char.le_def, UInt32.le_iff_toNat_le] at h
  unfold IsAscii Char.toNat
  rcases h with (((⟨_, h⟩ | ⟨_, h⟩) | ⟨_, h⟩) | rfl) | rfl
  · exact Nat.lt_of_le_of_lt h (by decide)
  · exact Nat.lt_of_le_of_lt h (by decide)
  · exact Nat.lt_of_le_of_lt h (by decide)
  · decide
  · decide

/-- The lower case of a domain name is that of its characters. -/
theorem IsDomain.lower_toList {s : String} (h : IsDomain s) :
    (lower s).toList = s.toList.map Char.toLower := by
  rw [lower, String.toList_ofList, lowerFrom_ascii fun c hc => isAscii_of_isDomainChar (h.all_chars hc)]

theorem IsDomain.isDomainChar_lower {s : String} (h : IsDomain s) :
    ∀ c ∈ (lower s).toList, isDomainChar c = true := by
  intro c hc
  rw [h.lower_toList, List.mem_map] at hc
  obtain ⟨d, hd, rfl⟩ := hc
  have hdomain := h.all_chars hd
  exact IsAscii.all (P := fun d => isDomainChar d = true → isDomainChar d.toLower = true)
    (by decide +kernel) (isAscii_of_isDomainChar hdomain) hdomain

theorem IsDomain.lower_ne_nil {s : String} (h : IsDomain s) : (lower s).toList ≠ [] := by
  rw [h.lower_toList]
  simpa using h.1

theorem IsDomain.lowerChars_lower {s : String} (h : IsDomain s) :
    Url.lowerChars (lower s).toList = (lower s).toList := by
  have hlower := h.lower_toList
  rw [Url.lowerChars, lowerFrom_ascii fun c hc => isAscii_of_isDomainChar (h.isDomainChar_lower c hc),
    hlower, List.map_map]
  refine List.map_congr_left ?_
  intro c hc
  exact (isAscii_of_isDomainChar (h.all_chars hc)).toLower_toLower

theorem IsDomain.notMem {s : String} (h : IsDomain s) {c : Char} (hc : isDomainChar c = false) :
    c ∉ s.toList := by
  intro hmem
  rw [h.all_chars hmem] at hc
  cases hc

/-- The characters of a domain name are those of an authority. -/
theorem IsDomain.isAuthority {s : String} (h : IsDomain s) : Url.IsAuthority s.toList := by
  intro c hc
  have hdomain := h.all_chars hc
  have hascii := isAscii_of_isDomainChar hdomain
  exact ⟨hascii, IsAscii.all (P := fun c => isDomainChar c = true → Url.isLineOrTab c = false ∧
    Url.endsAuthority c = false) (by decide +kernel) hascii hdomain⟩

/-- What follows a host: nothing, or a colon and the characters of a port. -/
def Url.portChars : Option String → List Char
  | none => []
  | some p => ':' :: p.toList

/-- A domain name is cut off from the port. -/
theorem IsDomain.hostInfo {s : String} (h : IsDomain s) {port : Option String}
    (hport : '[' ∉ Url.portChars port) {u : Url}
    (hu : Url.hostAndPort u.authority = s.toList ++ Url.portChars port) :
    u.hostInfo = (s.toList, (Url.portChars port).tail) := by
  have hbracket : cutFirst? '[' (s.toList ++ Url.portChars port) = none := by
    rw [cutFirst?_eq_none_iff, List.mem_append, not_or]
    exact ⟨h.notMem (by decide), hport⟩
  have hcolon : Url.cutOff ':' (s.toList ++ Url.portChars port) =
      (s.toList, (Url.portChars port).tail) := by
    cases port with
    | none =>
        rw [Url.portChars, List.append_nil, Url.cutOff,
          cutFirst?_eq_none_iff.2 (h.notMem (by decide))]
        rfl
    | some p =>
        rw [Url.portChars, Url.cutOff, cutFirst?_eq_some_iff.2 ⟨rfl, h.notMem (by decide)⟩]
        rfl
  simp only [Url.hostInfo, hu, hbracket, hcolon]

/-- The host that is a domain name is read in lower case. -/
theorem IsDomain.hostname {s : String} (h : IsDomain s) {u : Url} (hu : u.hostInfo.1 = s.toList) :
    u.hostname? = some (lower s).toList := by
  have hpercent : cutFirst? '%' s.toList = none := cutFirst?_eq_none_iff.2 (h.notMem (by decide))
  have hempty : s.toList.isEmpty = false := by simpa using h.1
  simp only [Url.hostname?, hu, hempty, hpercent]
  rw [lower, String.toList_ofList]
  rfl

theorem IsDomain.hostOf {s : String} (h : IsDomain s) {url : String} {u : Url}
    (hu : Url.ofText url = .ok u) (hhost : u.hostname? = some (lower s).toList) :
    Url.hostOf url = .ok (lower s) := by
  rw [Url.hostOf, hu]
  simp only [hhost, Option.getD_some, h.lowerChars_lower, String.ofList_toList]

/-! ### The client -/

namespace Client

/-- A character that ends the authority for the client. -/
def endsAuthority (c : Char) : Bool := Url.endsAuthority c || c == '\\'

/-- What follows the two slashes of a URL. -/
def afterSlashes? (cs : List Char) : Option (List Char) :=
  match cutFirst? '/' cs with
  | some (_, '/' :: rest) => some rest
  | _ => none

/-- The host of an authority, in lower case: it follows the last `@` and has no port. -/
def hostIn (authority : List Char) : List Char :=
  Url.lowerChars (beforeFirst ':' (afterLast '@' authority))

/-- The host that the client addresses for a URL. -/
def hostOf? (url : String) : Option String :=
  (afterSlashes? url.toList).map fun rest =>
    String.ofList (hostIn (rest.takeWhile fun c => !endsAuthority c))

/-- The client addresses the host for the URL, letter case aside. -/
def Addresses (url host : String) : Prop := hostOf? url = some (lower host)

instance (url host : String) : Decidable (Addresses url host) := inferInstanceAs (Decidable (_ = _))

/-- A backslash cuts the authority short. -/
theorem takeWhile_endsAuthority (rest : List Char) :
    (rest.takeWhile fun c => !endsAuthority c) =
      beforeFirst '\\' (rest.takeWhile fun c => !Url.endsAuthority c) := by
  rw [beforeFirst, List.takeWhile_takeWhile]
  congr 1
  funext c
  rw [Bool.eq_iff_iff]
  simp [endsAuthority, and_comm]

end Client

/-! ### The reading that scopes headers -/

namespace Url

/-- A cut that finds nothing leaves everything. -/
theorem cutOff_fst (sep : Char) (cs : List Char) : (Url.cutOff sep cs).1 = beforeFirst sep cs := by
  unfold Url.cutOff beforeFirst
  induction cs with
  | nil => rfl
  | cons c rest ih =>
      by_cases hc : c = sep
      · simp [cutFirst?, hc]
      · have hcons : (c :: rest).takeWhile (· != sep) = c :: rest.takeWhile (· != sep) :=
          beforeFirst_cons hc rest
        rw [cutFirst?, if_neg hc, hcons, ← ih]
        cases cutFirst? sep rest <;> rfl

/-- The first two slashes of a text are found again when it is cleaned. -/
theorem cleaned_slashes {front : List Char} (h : '/' ∉ front) (rest : List Char) :
    ∃ s, '/' ∉ s ∧ cleaned (front ++ '/' :: '/' :: rest) =
      s ++ '/' :: '/' :: rest.filter fun c => !isLineOrTab c := by
  have hslash : ¬isControlOrSpace '/' = true := by decide
  refine ⟨(front.dropWhile isControlOrSpace).filter fun c => !isLineOrTab c, fun hmem => ?_, ?_⟩
  · exact h ((List.dropWhile_sublist _).subset (List.mem_filter.1 hmem).1)
  · unfold cleaned
    rw [List.dropWhile_append]
    split
    · next hempty =>
      rw [List.isEmpty_iff.1 hempty, List.dropWhile_cons_of_neg hslash]
      rfl
    · rw [List.filter_append]
      rfl

/-- Without a slash in front, two slashes open the authority, or there is none. -/
theorem cutAuthority_slashes {s : List Char} (h : '/' ∉ s) (rest : List Char) :
    (cutAuthority (s ++ '/' :: '/' :: rest)).1 = (rest.takeWhile fun c => !endsAuthority c) ∨
      (cutAuthority (s ++ '/' :: '/' :: rest)).1 = [] := by
  cases s with
  | nil => exact .inl rfl
  | cons c s =>
      right
      rw [List.cons_append]
      unfold cutAuthority
      split
      · next heq =>
        obtain ⟨rfl, -⟩ := List.cons.inj heq
        simp at h
      · rfl

/-- A scheme is cut off in front of the slashes. -/
theorem authority_slashes {s : List Char} (h : '/' ∉ s) (rest : List Char) :
    (cutAuthority (cutScheme (s ++ '/' :: '/' :: rest)).2).1 =
        (rest.takeWhile fun c => !endsAuthority c) ∨
      (cutAuthority (cutScheme (s ++ '/' :: '/' :: rest)).2).1 = [] := by
  unfold cutScheme
  split
  · next scheme after hcut =>
    split
    · next hscheme =>
      obtain ⟨heq, hcolon⟩ := cutFirst?_eq_some_iff.1 hcut
      rw [Bool.and_eq_true] at hscheme
      have hnoslash : '/' ∉ scheme := fun hmem => by
        have hchar := List.all_eq_true.1 hscheme.2 _ hmem
        revert hchar
        decide
      -- the colon stands before the slashes, since a scheme has none
      rcases List.append_eq_append_iff.1 heq with ⟨t, rfl, htail⟩ | ⟨t, rfl, htail⟩
      · cases t with
        | nil => cases htail
        | cons d t =>
            obtain ⟨rfl, -⟩ := List.cons.inj htail
            simp at hnoslash
      · cases t with
        | nil => cases htail
        | cons d t =>
            obtain ⟨rfl, rfl⟩ := List.cons.inj htail
            exact cutAuthority_slashes (fun hmem => h (by simp [hmem])) rest
    · exact cutAuthority_slashes h rest
  · exact cutAuthority_slashes h rest

/-- What a text has to be for a host to be read from it. -/
theorem hostOf_ok {url name : String} (h : hostOf url = .ok name) :
    ∃ u : Url, u.authority = (cutAuthority (cutScheme (cleaned url.toList)).2).1 ∧
      bracketsFault? u.authority = none ∧
      name = String.ofList (lowerChars (u.hostname?.getD [])) := by
  unfold hostOf ofText ofTextWith at h
  simp only at h
  split at h
  · cases h
  · next u hu =>
    split at hu
    · cases hu
    · next hbrackets =>
      split at hu
      · cases hu
      · have hauthority : u.authority = (cutAuthority (cutScheme (cleaned url.toList)).2).1 := by
          rw [← Except.ok.inj hu]
        refine ⟨u, hauthority, ?_, (Except.ok.inj h).symm⟩
        rw [hauthority]
        exact hbrackets

/-- A bracket in the host and port of an authority stands in front of them. -/
theorem hostAndPort_of_bracket {authority : List Char} (h : bracketsFault? authority = none)
    (hmem : '[' ∈ hostAndPort authority) : ∃ inside, hostAndPort authority = '[' :: inside := by
  have hsub : '[' ∈ authority := by
    unfold hostAndPort at hmem
    by_cases hat : '@' ∈ authority
    · obtain ⟨front, heq, -⟩ := exists_afterLast hat
      rw [heq]
      simp [hmem]
    · rwa [afterLast_of_notMem hat] at hmem
  unfold bracketsFault? at h
  split at h
  · cases h
  · split at h
    · next hnone => simp [hsub] at hnone
    · split at h
      · next front inside hcut =>
        obtain ⟨heq, -⟩ := cutFirst?_eq_some_iff.1 hcut
        simp only at h
        split at h
        · cases h
        · next hfront =>
          obtain rfl : front = [] := by simpa using hfront
          exact ⟨inside, heq⟩
      · next hcut => exact absurd hmem (cutFirst?_eq_none_iff.1 hcut)

/-- Without brackets, the host stands before the first colon. -/
theorem hostInfo_fst {u : Url} (h : '[' ∉ hostAndPort u.authority) :
    u.hostInfo.1 = beforeFirst ':' (hostAndPort u.authority) := by
  unfold hostInfo
  simp only [cutFirst?_eq_none_iff.2 h]
  exact cutOff_fst _ _

/-- **The host that a URL is found to name is its host in lower case**, if it is a domain name. -/
theorem lowerChars_hostInfo {u : Url} {trusted : String} (ht : IsDomain trusted)
    (h : lower trusted = String.ofList (lowerChars (u.hostname?.getD []))) :
    lowerChars u.hostInfo.1 = (lower trusted).toList := by
  have hdomain := ht.isDomainChar_lower
  have hchars : (lower trusted).toList = lowerChars (u.hostname?.getD []) := by
    rw [h, String.toList_ofList]
  rw [hchars] at hdomain ⊢
  unfold hostname? at hchars hdomain ⊢
  simp only at hchars hdomain ⊢
  split at hchars
  · -- a URL without a host names no domain
    exact absurd hchars ht.lower_ne_nil
  · next hempty =>
    rw [if_neg hempty] at hdomain ⊢
    split at hdomain
    · next name zone hcut =>
      have hpercent : '%' ∈ lowerChars (lowerChars name ++ '%' :: zone) :=
        toLower_mem_lowerFrom (c := '%') (by unfold IsAscii; decide) (by simp)
      exact absurd (hdomain '%' hpercent) (by decide)
    · exact lowerFrom_lowerFrom.symm

/-! ### Where the readings agree -/

/-- The user of an authority: all that stands before the last `@`. -/
def userIn (authority : List Char) : List Char := ((cutLast? '@' authority).map (·.1)).getD []

/-- An authority whose host is the same to both: either no backslash stands before the host, and the
host holds neither a bracket nor a character that is dropped, or what stands before the first
backslash names the host as well. -/
def Agrees (host authority : List Char) : Prop :=
  ('\\' ∉ userIn authority ∧
    ∀ c ∈ beforeFirst ':' (afterLast '@' authority), c ≠ '[' ∧ isLineOrTab c = false) ∨
  ('\\' ∈ userIn authority ∧ Client.hostIn (beforeFirst '\\' (userIn authority)) = host)

/-- A URL that names the trusted host to the client as well. -/
def Unambiguous (trusted url : String) : Prop :=
  ∃ rest, Client.afterSlashes? url.toList = some rest ∧
    Agrees (lower trusted).toList (rest.takeWhile fun c => !endsAuthority c)

/-- A text whose lower case is a domain name has none of the characters that no domain has. -/
theorem notMem_of_lowerChars {host cs : List Char} (hhost : ∀ c ∈ host, isDomainChar c = true)
    (h : lowerChars cs = host) {c : Char} (hascii : IsAscii c) (hc : isDomainChar c.toLower = false) :
    c ∉ cs := by
  intro hmem
  have hlower : c.toLower ∈ lowerChars cs := toLower_mem_lowerFrom hascii hmem
  have hdomain := hhost _ (h ▸ hlower)
  rw [hc] at hdomain
  cases hdomain

theorem userIn_of_notMem {authority : List Char} (h : '@' ∉ authority) : userIn authority = [] := by
  rw [userIn, cutLast?_eq_none_iff.2 h]
  rfl

theorem eq_userIn {authority : List Char} (h : '@' ∈ authority) :
    authority = userIn authority ++ '@' :: afterLast '@' authority := by
  obtain ⟨front, heq, hback⟩ := exists_afterLast h
  have huser : userIn authority = front := by
    rw [userIn, cutLast?_eq_some_iff.2 ⟨heq, hback⟩]
    rfl
  rwa [huser]

/-- A backslash before the host cuts the host off. -/
theorem beforeFirst_of_mem_userIn {authority : List Char} (h : '\\' ∈ userIn authority) :
    beforeFirst '\\' authority = beforeFirst '\\' (userIn authority) := by
  have hat : '@' ∈ authority := by
    by_cases hat : '@' ∈ authority
    · exact hat
    · rw [userIn_of_notMem hat] at h
      cases h
  exact (congrArg (beforeFirst '\\') (eq_userIn hat)).trans (beforeFirst_append_of_mem h _)

/-- A backslash elsewhere leaves the beginning of the host. -/
theorem hostIn_of_notMem_userIn {authority : List Char} (h : '\\' ∉ userIn authority) :
    Client.hostIn (beforeFirst '\\' authority) =
      lowerChars (beforeFirst '\\' (beforeFirst ':' (afterLast '@' authority))) := by
  have hnotMem (cs : List Char) (hcs : '@' ∉ cs) : '@' ∉ beforeFirst '\\' cs := fun hmem =>
    hcs ((List.takeWhile_prefix _).subset hmem)
  rw [Client.hostIn, beforeFirst_comm '\\']
  congr 2
  by_cases hat : '@' ∈ authority
  · have hcut : beforeFirst '\\' authority =
        userIn authority ++ '@' :: beforeFirst '\\' (afterLast '@' authority) :=
      (congrArg (beforeFirst '\\') (eq_userIn hat)).trans (beforeFirst_append_of_notMem h _)
    rw [hcut, afterLast_append _ (hnotMem _ (notMem_afterLast '@' authority))]
  · rw [afterLast_of_notMem hat, afterLast_of_notMem (hnotMem _ hat)]

/-- A bracket that stands in front of the host once characters are dropped is in the host. -/
theorem bracket_mem_host {hostPort inside : List Char}
    (h : (hostPort.filter fun c => !isLineOrTab c) = '[' :: inside) :
    '[' ∈ beforeFirst ':' hostPort ∧ '[' ∈ beforeFirst '\\' (beforeFirst ':' hostPort) := by
  obtain ⟨front, back, rfl, hfront, -, -⟩ := List.filter_eq_cons_iff.1 h
  have hnotMem (sep : Char) (hsep : isLineOrTab sep = false) : sep ∉ front := fun hmem =>
    hfront sep hmem (by simp [hsep])
  have hbefore : beforeFirst ':' (front ++ '[' :: back) = front ++ '[' :: beforeFirst ':' back := by
    rw [beforeFirst_append_of_notMem (hnotMem ':' (by decide)), beforeFirst_cons (by decide)]
  refine ⟨mem_beforeFirst (hnotMem ':' (by decide)) (by decide) back, ?_⟩
  rw [hbefore]
  exact mem_beforeFirst (hnotMem '\\' (by decide)) (by decide) _

/-- **An authority that names a domain here names it to the client exactly if it agrees.** -/
theorem hostIn_iff {u : Url} {authority host : List Char}
    (hu : u.authority = authority.filter fun c => !isLineOrTab c)
    (hbrackets : bracketsFault? u.authority = none) (hhost : lowerChars u.hostInfo.1 = host)
    (hdomain : ∀ c ∈ host, isDomainChar c = true) :
    Client.hostIn (beforeFirst '\\' authority) = host ↔ Agrees host authority := by
  have hnone {cs : List Char} (hcs : lowerChars cs = host) {c : Char} (hascii : IsAscii c)
      (hc : isDomainChar c.toLower = false) : c ∉ cs := notMem_of_lowerChars hdomain hcs hascii hc
  -- a backslash before the last at sign cuts the host off, and one behind it is in the host
  by_cases hslash : '\\' ∈ userIn authority
  · rw [beforeFirst_of_mem_userIn hslash]
    simp [Agrees, hslash]
  · have hinfo : hostAndPort u.authority =
        (afterLast '@' authority).filter fun c => !isLineOrTab c := by
      rw [hu]
      exact afterLast_filter (by decide)
    rw [hostIn_of_notMem_userIn hslash]
    simp only [Agrees, hslash, not_false_iff, true_and, false_and, or_false]
    -- a bracket is kept by the client, which then names no domain
    by_cases hbracket : '[' ∈ hostAndPort u.authority
    · obtain ⟨inside, hinside⟩ := hostAndPort_of_bracket hbrackets hbracket
      rw [hinfo] at hinside
      obtain ⟨hmem, hmem'⟩ := bracket_mem_host hinside
      refine ⟨fun heq => ?_, fun hclean => ?_⟩
      · exact absurd hmem' (hnone heq (by unfold IsAscii; decide) (by decide))
      · exact absurd rfl (hclean '[' hmem).1
    · rw [hostInfo_fst hbracket, hinfo, beforeFirst_filter (by decide)] at hhost
      have hwhole : '\\' ∉ beforeFirst ':' (afterLast '@' authority) := fun hmem =>
        hnone hhost (by unfold IsAscii; decide) (by decide)
          (List.mem_filter.2 ⟨hmem, by decide⟩)
      rw [beforeFirst_of_notMem hwhole]
      refine ⟨fun heq c hmem => ⟨?_, ?_⟩, fun hclean => ?_⟩
      · rintro rfl
        exact hnone heq (by unfold IsAscii; decide) (by decide) hmem
      · cases hc : isLineOrTab c with
        | false => rfl
        | true =>
            simp only [isLineOrTab, Bool.or_eq_true, beq_iff_eq] at hc
            obtain (rfl | rfl) | rfl := hc <;>
              exact absurd hmem (hnone heq (by unfold IsAscii; decide) (by decide))
      · rw [← hhost, List.filter_eq_self.2 fun c hmem => by simp [(hclean c hmem).2]]

/-- **A URL that names the trusted host here names it to the client exactly if it is
unambiguous.** -/
theorem addresses_iff {trusted url : String} (ht : IsDomain trusted)
    (h : hostOf url = .ok (lower trusted)) :
    Client.Addresses url trusted ↔ Unambiguous trusted url := by
  obtain ⟨u, hu, hbrackets, hname⟩ := hostOf_ok h
  unfold Client.Addresses Client.hostOf? Unambiguous
  cases hrest : Client.afterSlashes? url.toList with
  | none => simp
  | some rest =>
      have hhost := lowerChars_hostInfo ht hname
      obtain ⟨front, heq, hfront⟩ : ∃ front, url.toList = front ++ '/' :: '/' :: rest ∧
          '/' ∉ front := by
        unfold Client.afterSlashes? at hrest
        split at hrest
        · next front rest' hcut =>
          obtain rfl := Option.some.inj hrest
          exact ⟨front, cutFirst?_eq_some_iff.1 hcut⟩
        · cases hrest
      obtain ⟨s, hs, hcleaned⟩ := cleaned_slashes hfront rest
      rw [heq, hcleaned] at hu
      -- line breaks and tabs are dropped before the authority is cut, and none of them ends it
      have hauthority : u.authority =
          (rest.takeWhile fun c => !endsAuthority c).filter fun c => !isLineOrTab c := by
        rcases authority_slashes hs (rest.filter fun c => !isLineOrTab c) with hcut | hcut
        · rw [hu, hcut]
          refine takeWhile_filter_of_pass ?_
          intro c hc
          simp only [isLineOrTab, Bool.not_eq_false', Bool.or_eq_true, beq_iff_eq] at hc
          obtain (rfl | rfl) | rfl := hc <;> decide
        · rw [hcut] at hu
          rw [hostInfo_fst (by simp [hu, hostAndPort, afterLast, cutLast?, cutFirst?]), hu] at hhost
          exact absurd hhost.symm ht.lower_ne_nil
      have hiff := hostIn_iff hauthority hbrackets hhost ht.isDomainChar_lower
      rw [← Client.takeWhile_endsAuthority] at hiff
      simp only [Option.map_some, Option.some.injEq, exists_eq_left', ← hiff]
      constructor
      · intro heq'
        rw [← heq', String.toList_ofList]
      · intro heq'
        rw [heq', String.ofList_toList]

/-! ### A URL on which the readings differ -/

/-- A URL that names one host after a backslash and another one before it. -/
def misleading (trusted other : String) : String := "https://" ++ other ++ "\\@" ++ trusted ++ "/"

theorem misleading_toList (trusted other : String) :
    (misleading trusted other).toList = 'h' :: 't' :: 't' :: 'p' :: 's' :: ':' :: '/' :: '/' ::
      ((other.toList ++ '\\' :: '@' :: trusted.toList) ++ ['/']) := by
  simp [misleading]

/-- The characters between the slashes of such a URL are an authority without brackets. -/
theorem misleading_isAuthority {trusted other : String} (ht : IsDomain trusted)
    (ho : IsDomain other) : IsAuthority (other.toList ++ '\\' :: '@' :: trusted.toList) := by
  intro c hc
  rw [List.mem_append, List.mem_cons, List.mem_cons] at hc
  rcases hc with hc | rfl | rfl | hc
  · exact ho.isAuthority c hc
  · unfold IsAscii
    decide
  · unfold IsAscii
    decide
  · exact ht.isAuthority c hc

/-- The parts of such a URL. -/
theorem ofText_misleading {trusted other : String} (ht : IsDomain trusted) (ho : IsDomain other) :
    ofText (misleading trusted other) = .ok
      ⟨['h', 't', 't', 'p', 's'], other.toList ++ '\\' :: '@' :: trusted.toList, ['/'], [], [],
        []⟩ := by
  have hbrackets : bracketsFault? (other.toList ++ '\\' :: '@' :: trusted.toList) = none := by
    simp [bracketsFault?, ho.notMem (c := '[') (by decide), ho.notMem (c := ']') (by decide),
      ht.notMem (c := '[') (by decide), ht.notMem (c := ']') (by decide)]
  have hscheme : IsScheme ['h', 't', 't', 'p', 's'] := by decide
  rw [ofText_authority hscheme (misleading_isAuthority ht ho) (.inr rfl)
    (misleading_toList trusted other), hbrackets]
  rfl

/-- The host of such a URL is the one after the backslash. -/
theorem hostInfo_misleading {trusted other : String} (ht : IsDomain trusted)
    (u : Url) (hu : u.authority = other.toList ++ '\\' :: '@' :: trusted.toList) :
    u.hostInfo = (trusted.toList, []) := by
  have hport : '[' ∉ portChars none := by simp [portChars]
  refine ht.hostInfo hport ?_
  have heq : other.toList ++ '\\' :: '@' :: trusted.toList =
      (other.toList ++ ['\\']) ++ '@' :: trusted.toList := by simp
  rw [hu, hostAndPort, heq, afterLast_append _ (ht.notMem (by decide)), portChars, List.append_nil]

theorem hostname_misleading {trusted other : String} (ht : IsDomain trusted)
    (u : Url) (hu : u.authority = other.toList ++ '\\' :: '@' :: trusted.toList) :
    u.hostname? = some (lower trusted).toList :=
  ht.hostname (by rw [hostInfo_misleading ht u hu])

theorem hostOf_misleading {trusted other : String} (ht : IsDomain trusted) (ho : IsDomain other) :
    hostOf (misleading trusted other) = .ok (lower trusted) := by
  obtain ⟨u, hu, hauthority⟩ : ∃ u, ofText (misleading trusted other) = .ok u ∧
      u.authority = other.toList ++ '\\' :: '@' :: trusted.toList :=
    ⟨_, ofText_misleading ht ho, rfl⟩
  exact ht.hostOf hu (hostname_misleading ht u hauthority)

/-- To the client, the host of such a URL is the one before the backslash. -/
theorem addresses_misleading {trusted other : String} (ht : IsDomain trusted)
    (ho : IsDomain other) : Client.Addresses (misleading trusted other) other := by
  have hmem := misleading_isAuthority ht ho
  have hrest : Client.afterSlashes? (misleading trusted other).toList =
      some ((other.toList ++ '\\' :: '@' :: trusted.toList) ++ ['/']) := by
    rw [misleading_toList]
    rfl
  have htake : ((other.toList ++ '\\' :: '@' :: trusted.toList) ++ ['/']).takeWhile
      (fun c => !endsAuthority c) = other.toList ++ '\\' :: '@' :: trusted.toList := by
    rw [List.takeWhile_append_of_pos fun c hc => by simp [(hmem c hc).2.2]]
    simp [endsAuthority]
  have hcut : beforeFirst '\\' (other.toList ++ '\\' :: '@' :: trusted.toList) = other.toList := by
    rw [beforeFirst_append_of_notMem (ho.notMem (by decide))]
    simp [beforeFirst]
  rw [Client.Addresses, Client.hostOf?, hrest, Option.map_some, Client.takeWhile_endsAuthority,
    htake, hcut, Client.hostIn, afterLast_of_notMem (ho.notMem (by decide)),
    beforeFirst_of_notMem (ho.notMem (by decide))]
  rfl

end Url

end ReleaseFetch
