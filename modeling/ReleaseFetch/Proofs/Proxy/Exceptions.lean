/-
**The list of hosts without a proxy.**

A list of exceptions is the union of its entries: it names a host at a port exactly if one of them
holds, wherever it stands, however often, and whatever stands beside it.  What an entry says is
stated here for entries in lower case, without the order in which the parts are looked at.

Main definitions:

* `ReleaseFetch.Proxy.written` — the entries of a list, as they are written;
* `ReleaseFetch.Proxy.IsNumeral`, `ReleaseFetch.Proxy.Reaches`, `ReleaseFetch.Proxy.Holds` — what an
  entry says;
* `ReleaseFetch.Proxy.Ordinary` — a list in ASCII whose entries are not too long.

Main results:

* `ReleaseFetch.Proxy.entries_eq` — a list is cut into its entries;
* `ReleaseFetch.Numeral.integer_numeral` — a numeral is read;
* `ReleaseFetch.Proxy.anyCovers_singleton` — one entry;
* `ReleaseFetch.Proxy.anyCovers_iff` — all entries, by induction;
* `ReleaseFetch.Proxy.excepts_union` — a list is the union of its entries.
-/

import ReleaseFetch.Http.Proxy
import ReleaseFetch.Proofs.Text.Lowercase

set_option autoImplicit false

namespace ReleaseFetch

open Text

namespace Proxy

/-! ### What an entry says -/

/-- A numeral: digits, and at least one. -/
def IsNumeral (digits : List Char) : Prop := digits ≠ [] ∧ ∀ c ∈ digits, c.isDigit = true

/-- **The hosts of an entry**: with a star or a dot in front it names the endings, any other entry
one host.  The star itself is no part of the ending. -/
inductive Reaches (hostname : List Char) : List Char → Prop
  | star {ending : List Char} (h : ending <:+ hostname) : Reaches hostname ('*' :: ending)
  | dot {rest : List Char} (h : '.' :: rest <:+ hostname) : Reaches hostname ('.' :: rest)
  | same {host : List Char} (hstar : ∀ rest, host ≠ '*' :: rest) (hdot : ∀ rest, host ≠ '.' :: rest)
      (h : hostname = host) : Reaches hostname host

/-- **An entry holds for a host and a port.**  A numeral after the last colon is the port that the
entry is about; an entry without one is about all ports. -/
inductive Holds (hostname : List Char) (port : Int) : List Char → Prop
  | all : Holds hostname port ['*']
  | ported {host digits : List Char} (hdigits : IsNumeral digits)
      (hport : (Nat.ofDigitChars 10 digits 0 : Int) = port) (hhost : Reaches hostname host) :
      Holds hostname port (host ++ ':' :: digits)
  | plain {e : List Char} (hplain : ∀ host digits, IsNumeral digits → e ≠ host ++ ':' :: digits)
      (hhost : Reaches hostname e) : Holds hostname port e

/-- A comma or a blank separates entries. -/
def separates (c : Char) : Bool := c == ',' || isBlank c

/-- **The entries of a list, as they are written.** -/
def written (list : String) : List (List Char) :=
  (list.toList.splitOnP separates).filter (· ≠ [])

/-- A list in ASCII, none of whose entries has room for a numeral that is too long to be read. -/
def Ordinary (list : String) : Prop :=
  (∀ c ∈ list.toList, IsAscii c) ∧ ∀ e ∈ written list, e.length < 4300

/-! ### The entries of a list -/

/-- What stands between separators, behind what was read already. -/
theorem wordsFrom_eq (run cs : List Char) :
    wordsFrom run (cs.map fun c => if c = ',' then ' ' else c) =
      ((cs.splitOnP separates).modifyHead (run.reverse ++ ·)).filter (· ≠ []) := by
  induction cs generalizing run with
  | nil => cases run <;> simp [wordsFrom]
  | cons c rest ih =>
      have hblank : isBlank (if c = ',' then ' ' else c) = separates c := by
        by_cases hc : c = ','
        · subst hc
          decide
        · simp [separates, hc]
      rw [List.map_cons, wordsFrom, hblank, List.splitOnP_cons_eq_if_modifyHead]
      cases hseparates : separates c with
      | true =>
          have hrest := ih []
          simp only [List.reverse_nil, List.nil_append] at hrest
          have hid : (rest.splitOnP separates).modifyHead (fun x => x) =
              rest.splitOnP separates := by
            cases rest.splitOnP separates <;> rfl
          rw [hid] at hrest
          cases run <;> simp [hrest]
      | false =>
          have hc : c ≠ ',' := by
            rintro rfl
            cases hseparates
          simp only [Bool.false_eq_true, if_false, hc]
          rw [ih, List.modifyHead_modifyHead]
          congr 3
          funext x
          simp

/-- **A list is cut into its entries**, which are put in lower case one by one. -/
theorem entries_eq (list : String) : entries list = (written list).map Url.lowerChars := by
  rw [entries, wordsFrom_eq, written]
  congr 2
  cases list.toList.splitOnP separates <;> rfl

/-- The entries of a list that goes on after a comma. -/
theorem written_append (a b : String) : written (a ++ "," ++ b) = written a ++ written b := by
  have hlist : (a ++ "," ++ b).toList = a.toList ++ ',' :: b.toList := by simp
  rw [written, hlist, List.splitOnP_append_cons _ _ rfl, List.filter_append]
  rfl

end Proxy

/-! ### Numerals -/

namespace Numeral

theorem isAscii_of_isDigit {c : Char} (h : c.isDigit = true) : IsAscii c := by
  have hle : c.toNat ≤ '9'.toNat := by
    simp only [Char.isDigit, Bool.and_eq_true, decide_eq_true_eq] at h
    exact h.2
  exact Nat.lt_of_le_of_lt hle (by decide)

/-- A plain digit is a digit of every kind, and nothing that may stand before one. -/
theorem digit_spec {c : Char} (h : c.isDigit = true) :
    isDigit c = true ∧ digitIn? 10 c = some (c.toNat - '0'.toNat) ∧ isSkipped c = false ∧
      c ≠ '-' ∧ c ≠ '+' ∧ c ≠ ':' :=
  IsAscii.all (P := fun c => c.isDigit = true → isDigit c = true ∧
    digitIn? 10 c = some (c.toNat - '0'.toNat) ∧ isSkipped c = false ∧ c ≠ '-' ∧ c ≠ '+' ∧ c ≠ ':')
    (by decide +kernel) (isAscii_of_isDigit h) h

/-- No other ASCII character is a digit of any kind. -/
theorem isDigit_of_isAscii {c : Char} (hc : IsAscii c) (h : isDigit c = true) : c.isDigit = true :=
  IsAscii.all (P := fun c => isDigit c = true → c.isDigit = true) (by decide +kernel) hc h

/-- Digits are read to the end, one by one. -/
theorem digits?_of_isDigit {cs : List Char} (h : ∀ c ∈ cs, c.isDigit = true) :
    digits? 10 true cs = some (cs.map fun c => c.toNat - '0'.toNat, []) := by
  induction cs with
  | nil => rfl
  | cons c rest ih =>
      obtain ⟨hc, hrest⟩ := List.forall_mem_cons.1 h
      rw [digits?, (digit_spec hc).2.1]
      simp only [ih hrest, Option.map_some, List.map_cons]

/-- **A numeral is read**, unless it is too long. -/
theorem integer_numeral {digits : List Char} (h : Proxy.IsNumeral digits)
    (hlength : digits.length ≤ digitLimit) :
    integer 10 (String.ofList digits) = .ok (Nat.ofDigitChars 10 digits 0) := by
  obtain ⟨hne, hdigits⟩ := h
  obtain ⟨c, rest, rfl⟩ := List.exists_cons_of_ne_nil hne
  obtain ⟨hc, hrest⟩ := List.forall_mem_cons.1 hdigits
  obtain ⟨-, hvalue, hskipped, hminus, hplus, -⟩ := digit_spec hc
  have hread : digits? 10 false (c :: rest) =
      some ((c :: rest).map fun c => c.toNat - '0'.toNat, []) := by
    rw [digits?, hvalue]
    simp only [digits?_of_isDigit hrest, Option.map_some, List.map_cons]
  have hmark (cs : List Char) : dropMark 10 cs = cs := by
    unfold dropMark
    split <;> rfl
  have hsign : sign (c :: rest) = (false, c :: rest) := by
    unfold sign
    split
    · next heq => exact absurd (List.cons.inj heq).1 hminus
    · next heq => exact absurd (List.cons.inj heq).1 hplus
    · rfl
  have hlimit : ¬(((c :: rest).map fun c => c.toNat - '0'.toNat).length > digitLimit) := by
    rw [List.length_map]
    omega
  unfold integer
  rw [String.toList_ofList, List.dropWhile_cons_of_neg (by simp [hskipped]), hsign]
  simp only [hmark, hread]
  rw [decide_eq_false hlimit]
  simp [valueOf, Nat.ofDigitChars, List.foldl_map, Nat.mul_comm]

end Numeral

namespace Proxy

/-! ### One entry -/

section Entry

variable {cs host digits hostname : List Char} {port : Int}

/-- Digits after the last colon are a port. -/
theorem ofChars_ported (h : IsNumeral digits) :
    Entry.ofChars (host ++ ':' :: digits) = ⟨host, digits⟩ := by
  have hcolon : ':' ∉ digits := fun hmem => (Numeral.digit_spec (h.2 _ hmem)).2.2.2.2.2 rfl
  have hcut : cutLast? ':' (host ++ ':' :: digits) = some (host, digits) :=
    cutLast?_eq_some_iff.2 ⟨rfl, hcolon⟩
  have hall : digits.all isDigit = true :=
    List.all_eq_true.2 fun c hc => (Numeral.digit_spec (h.2 c hc)).1
  have hsome : digits.isEmpty = false := by simpa using h.1
  rw [Entry.ofChars, hcut]
  simp [hsome, hall]

/-- Any other entry is a host. -/
theorem ofChars_plain (hascii : ∀ c ∈ cs, IsAscii c)
    (h : ∀ host digits, IsNumeral digits → cs ≠ host ++ ':' :: digits) :
    Entry.ofChars cs = ⟨cs, []⟩ := by
  unfold Entry.ofChars
  split
  · next host digits hcut =>
    obtain ⟨rfl, -⟩ := cutLast?_eq_some_iff.1 hcut
    split
    · next hdigits =>
      obtain ⟨hne, hall⟩ := Bool.and_eq_true_iff.1 hdigits
      have hnumeral : IsNumeral digits := by
        refine ⟨by simpa using hne, fun c hc => ?_⟩
        exact Numeral.isDigit_of_isAscii (hascii c (by simp [hc])) (List.all_eq_true.1 hall c hc)
      exact absurd rfl (h host digits hnumeral)
    · rfl
  · rfl

theorem coversPort_numeral (h : IsNumeral digits) (hlength : digits.length ≤ Numeral.digitLimit) :
    Entry.coversPort ⟨host, digits⟩ port =
      .ok (decide ((Nat.ofDigitChars 10 digits 0 : Int) = port)) := by
  have hsome : digits.isEmpty = false := by simpa using h.1
  simp only [Entry.coversPort, hsome, Bool.false_eq_true, if_false,
    Numeral.integer_numeral h hlength]
  rfl

/-- **The hosts of an entry.** -/
theorem coversHost_iff :
    Entry.coversHost ⟨host, digits⟩ hostname = true ↔ Reaches hostname host := by
  unfold Entry.coversHost
  simp only
  split
  · next ending =>
    rw [List.isSuffixOf_iff_suffix]
    refine ⟨.star, fun h => ?_⟩
    cases h with
    | star h => exact h
    | same hstar => exact absurd rfl (hstar _)
  · next rest =>
    rw [List.isSuffixOf_iff_suffix]
    refine ⟨.dot, fun h => ?_⟩
    cases h with
    | dot h => exact h
    | same hstar hdot => exact absurd rfl (hdot _)
  · next hstar hdot =>
    rw [beq_iff_eq]
    refine ⟨fun h => .same hstar hdot h, fun h => ?_⟩
    cases h with
    | star => exact absurd rfl (hstar _)
    | dot => exact absurd rfl (hdot _)
    | same _ _ h => exact h

/-- Entries are tried in order, and the rest is not looked at once one holds. -/
theorem anyCovers_cons (hostname : List Char) (port : Int) (cs : List Char)
    (rest : List (List Char)) :
    anyCovers hostname port (cs :: rest) =
      (anyCovers hostname port [cs] >>= fun b =>
        if b then .ok true else anyCovers hostname port rest) := by
  simp only [anyCovers]
  split
  · rfl
  · cases (Entry.ofChars cs).coversPort port with
    | error f => rfl
    | ok b =>
        cases b with
        | false => rfl
        | true => cases (Entry.ofChars cs).coversHost hostname <;> rfl

theorem anyCovers_append (hostname : List Char) (port : Int) (es fs : List (List Char)) :
    anyCovers hostname port (es ++ fs) =
      (anyCovers hostname port es >>= fun b =>
        if b then .ok true else anyCovers hostname port fs) := by
  induction es with
  | nil => rfl
  | cons cs rest ih =>
      rw [List.cons_append, anyCovers_cons, ih, anyCovers_cons hostname port cs rest]
      cases anyCovers hostname port [cs] with
      | error f => rfl
      | ok b => cases b <;> rfl

/-- An entry other than the star is decided by its port, and then by its host. -/
theorem anyCovers_entry {e : Entry} {b : Bool} (hstar : cs ≠ ['*']) (he : Entry.ofChars cs = e)
    (hport : e.coversPort port = .ok b) :
    anyCovers hostname port [cs] = .ok (b && e.coversHost hostname) := by
  have hbeq : (cs == ['*']) = false := by simpa using hstar
  simp only [anyCovers, hbeq, Bool.false_eq_true, if_false, he, hport]
  cases b with
  | false => rfl
  | true => cases e.coversHost hostname <;> rfl

/-- An entry with a port holds for that port. -/
theorem holds_ported_iff (hdigits : IsNumeral digits) :
    Holds hostname port (host ++ ':' :: digits) ↔
      (Nat.ofDigitChars 10 digits 0 : Int) = port ∧ Reaches hostname host := by
  refine ⟨fun h => ?_, fun ⟨hport, hhost⟩ => .ported hdigits hport hhost⟩
  generalize heq : host ++ ':' :: digits = e at h
  cases h with
  | all =>
      have hcolon : ':' ∈ ['*'] := heq ▸ by simp
      exact absurd hcolon (by decide)
  | @ported host' digits' hdigits' hport hhost =>
      -- the last colon is the same one
      have hsame : Entry.ofChars (host' ++ ':' :: digits') = ⟨host', digits'⟩ :=
        ofChars_ported hdigits'
      rw [← heq, ofChars_ported hdigits] at hsame
      obtain ⟨rfl, rfl⟩ := Entry.mk.inj hsame
      exact ⟨hport, hhost⟩
  | plain hplain => exact absurd heq.symm (hplain _ _ hdigits)

/-- An entry without a port, other than the star, holds for its hosts. -/
theorem holds_plain_iff (hstar : cs ≠ ['*'])
    (hplain : ∀ host digits, IsNumeral digits → cs ≠ host ++ ':' :: digits) :
    Holds hostname port cs ↔ Reaches hostname cs := by
  refine ⟨fun h => ?_, .plain hplain⟩
  cases h with
  | all => exact absurd rfl hstar
  | ported hdigits => exact absurd rfl (hplain _ _ hdigits)
  | plain _ hhost => exact hhost

/-- **One entry**: it is decided, and holds as it says. -/
theorem anyCovers_singleton (hostname : List Char) (port : Int) (hascii : ∀ c ∈ cs, IsAscii c)
    (hlength : cs.length < 4300) :
    ∃ b, anyCovers hostname port [cs] = .ok b ∧ (b = true ↔ Holds hostname port cs) := by
  by_cases hall : cs = ['*']
  · subst hall
    exact ⟨true, rfl, iff_of_true rfl .all⟩
  by_cases hported : ∃ host digits, IsNumeral digits ∧ cs = host ++ ':' :: digits
  · obtain ⟨host, digits, hdigits, rfl⟩ := hported
    have hlimit : digits.length ≤ Numeral.digitLimit := by
      have hdigitLimit : Numeral.digitLimit = 4300 := rfl
      rw [List.length_append, List.length_cons] at hlength
      omega
    refine ⟨_, anyCovers_entry hall (ofChars_ported hdigits)
      (coversPort_numeral hdigits hlimit), ?_⟩
    rw [Bool.and_eq_true, decide_eq_true_eq, coversHost_iff, holds_ported_iff hdigits]
  · have hplain : ∀ host digits, IsNumeral digits → cs ≠ host ++ ':' :: digits :=
      fun host digits hdigits heq => hported ⟨host, digits, hdigits, heq⟩
    refine ⟨_, anyCovers_entry hall (ofChars_plain hascii hplain) rfl, ?_⟩
    rw [Bool.true_and, coversHost_iff, holds_plain_iff hall hplain]

end Entry

/-! ### All entries -/

/-- **All entries**: whether one of them holds is decided. -/
theorem anyCovers_iff (hostname : List Char) (port : Int) {es : List (List Char)}
    (h : ∀ cs ∈ es, (∀ c ∈ cs, IsAscii c) ∧ cs.length < 4300) :
    ∃ b, anyCovers hostname port es = .ok b ∧
      (b = true ↔ ∃ cs ∈ es, Holds hostname port cs) := by
  induction es with
  | nil => exact ⟨false, rfl, by simp⟩
  | cons cs rest ih =>
      obtain ⟨hcs, hrest⟩ := List.forall_mem_cons.1 h
      obtain ⟨b, hb, hiff⟩ := anyCovers_singleton hostname port hcs.1 hcs.2
      obtain ⟨b', hb', hiff'⟩ := ih hrest
      refine ⟨b || b', ?_, ?_⟩
      · rw [anyCovers_cons, hb, hb']
        cases b <;> rfl
      · rw [Bool.or_eq_true, hiff, hiff']
        simp

/-! ### A list -/

/-- The lower case of ASCII is ASCII, and as long. -/
theorem lowerChars_ascii {e : List Char} (h : ∀ c ∈ e, IsAscii c) :
    Url.lowerChars e = e.map Char.toLower ∧ ∀ c ∈ e.map Char.toLower, IsAscii c := by
  refine ⟨lowerFrom_ascii h, fun c hc => ?_⟩
  obtain ⟨d, hd, rfl⟩ := List.mem_map.1 hc
  exact (h d hd).toLower

/-- The characters of a piece are characters of the text. -/
theorem mem_of_mem_splitOnP {cs e : List Char} {c : Char} (he : e ∈ cs.splitOnP separates)
    (hc : c ∈ e) : c ∈ cs := by
  induction cs generalizing e with
  | nil =>
      rw [List.splitOnP_nil, List.mem_singleton] at he
      rwa [he] at hc
  | cons d rest ih =>
      rw [List.splitOnP_cons_eq_if_modifyHead] at he
      split at he
      · rcases List.mem_cons.1 he with rfl | he
        · cases hc
        · exact List.mem_cons_of_mem d (ih he hc)
      · cases hpieces : rest.splitOnP separates with
        | nil =>
            rw [hpieces] at he
            cases he
        | cons piece pieces =>
            rw [hpieces, List.modifyHead_cons] at he
            rcases List.mem_cons.1 he with rfl | he
            · rcases List.mem_cons.1 hc with rfl | hc
              · exact List.mem_cons_self
              · exact List.mem_cons_of_mem d (ih (by simp [hpieces]) hc)
            · exact List.mem_cons_of_mem d (ih (by simp [hpieces, he]) hc)

/-- A list of ordinary entries is decided, and names a host if one of its entries holds. -/
theorem excepts_iff {list : String} (h : Ordinary list) (hostname : String) (port : Int) :
    ∃ b, excepts list hostname port = .ok b ∧
      (b = true ↔ ∃ e ∈ written list, Holds hostname.toList port (e.map Char.toLower)) := by
  have hlower : ∀ e ∈ written list, Url.lowerChars e = e.map Char.toLower ∧
      ∀ c ∈ e.map Char.toLower, IsAscii c := fun e he =>
    lowerChars_ascii fun c hc => h.1 c (mem_of_mem_splitOnP (List.mem_filter.1 he).1 hc)
  have hentries : entries list = (written list).map (·.map Char.toLower) := by
    rw [entries_eq]
    exact List.map_congr_left fun e he => (hlower e he).1
  have hshort : ∀ cs ∈ entries list, (∀ c ∈ cs, IsAscii c) ∧ cs.length < 4300 := by
    intro cs hcs
    rw [hentries] at hcs
    obtain ⟨e, he, rfl⟩ := List.mem_map.1 hcs
    exact ⟨(hlower e he).2, by simpa using h.2 e he⟩
  obtain ⟨b, hb, hiff⟩ := anyCovers_iff hostname.toList port hshort
  refine ⟨b, hb, hiff.trans ?_⟩
  rw [hentries]
  constructor
  · rintro ⟨cs, hcs, hholds⟩
    obtain ⟨e, he, rfl⟩ := List.mem_map.1 hcs
    exact ⟨e, he, hholds⟩
  · rintro ⟨e, he, hholds⟩
    exact ⟨_, List.mem_map.2 ⟨e, he, rfl⟩, hholds⟩

/-- **A list of exceptions is the union of its entries.**  It names a host at a port exactly if one
of them holds.  Two lists with a comma between them name what one of the two names; the second one
is not looked at if the first one is enough.  So the order of the entries and their repetition do
not matter, and a list that has more entries names more. -/
theorem excepts_union (hostname : String) (port : Int) :
    (∀ list, Ordinary list → ∃ b, excepts list hostname port = .ok b ∧
      (b = true ↔ ∃ e ∈ written list, Holds hostname.toList port (e.map Char.toLower))) ∧
    (∀ a b, excepts (a ++ "," ++ b) hostname port =
      (excepts a hostname port >>= fun x =>
        if x then .ok true else excepts b hostname port)) ∧
    (∀ a b, Ordinary a → Ordinary b → (∀ e ∈ written a, e ∈ written b) →
      excepts a hostname port = .ok true → excepts b hostname port = .ok true) ∧
    (∀ a b, Ordinary a → Ordinary b → (∀ e, e ∈ written a ↔ e ∈ written b) →
      excepts a hostname port = excepts b hostname port) := by
  have hmore (a b : String) (ha : Ordinary a) (hb : Ordinary b)
      (hsub : ∀ e ∈ written a, e ∈ written b) (htrue : excepts a hostname port = .ok true) :
      excepts b hostname port = .ok true := by
    obtain ⟨x, hx, hiff⟩ := excepts_iff ha hostname port
    obtain ⟨y, hy, hiff'⟩ := excepts_iff hb hostname port
    obtain rfl : x = true := Except.ok.inj (hx.symm.trans htrue)
    obtain ⟨e, he, hholds⟩ := hiff.1 rfl
    rw [hy, hiff'.2 ⟨e, hsub e he, hholds⟩]
  refine ⟨fun list h => excepts_iff h hostname port, fun a b => ?_, hmore,
    fun a b ha hb hsame => ?_⟩
  · unfold excepts
    rw [entries_eq, written_append, List.map_append, ← entries_eq, ← entries_eq, anyCovers_append]
  · obtain ⟨x, hx, -⟩ := excepts_iff ha hostname port
    obtain ⟨y, hy, -⟩ := excepts_iff hb hostname port
    have hto := hmore a b ha hb fun e he => (hsame e).1 he
    have hfrom := hmore b a hb ha fun e he => (hsame e).2 he
    rw [hx, hy] at hto hfrom ⊢
    cases x with
    | true => exact (hto rfl).symm
    | false =>
        cases y with
        | true => exact hfrom rfl
        | false => rfl

/-- That a list is ordinary can be decided character by character. -/
theorem ordinary_of_all {list : String}
    (hascii : list.toList.all (fun c => decide (c.toNat < 0x80)) = true)
    (hshort : (written list).all (fun e => decide (e.length < 4300)) = true) : Ordinary list := by
  unfold Ordinary IsAscii
  simpa only [List.all_eq_true, decide_eq_true_eq] using And.intro hascii hshort

/-- An entry with a zero in front of its port holds, by itself, twice, and after others of every
kind that do not hold. -/
theorem excepts_union_ported :
    excepts ".B.org:0443" "api.b.org" 443 = .ok true ∧
      excepts ".B.org:0443" "api.b.org" 443 = excepts ".B.org:0443, .B.org:0443" "api.b.org" 443 ∧
      excepts "*:80,a:b:1 **x\t:443 .B.org:0443" "api.b.org" 443 = .ok true := by
  have hone : Ordinary ".B.org:0443" := ordinary_of_all (by decide +kernel) (by decide +kernel)
  have htwice : Ordinary ".B.org:0443, .B.org:0443" :=
    ordinary_of_all (by decide +kernel) (by decide +kernel)
  have hmany : Ordinary "*:80,a:b:1 **x\t:443 .B.org:0443" :=
    ordinary_of_all (by decide +kernel) (by decide +kernel)
  have hholds : Holds "api.b.org".toList 443 (".b.org".toList ++ ':' :: "0443".toList) :=
    .ported ⟨by decide, List.all_eq_true.1 (by decide +kernel)⟩ rfl (.dot ⟨"api".toList, rfl⟩)
  obtain ⟨hdecided, -, hmore, hsame⟩ := excepts_union "api.b.org" 443
  obtain ⟨b, hb, hiff⟩ := hdecided _ hone
  have htrue : excepts ".B.org:0443" "api.b.org" 443 = .ok true := by
    rw [hb, hiff.2 ⟨".B.org:0443".toList, by decide +kernel, hholds⟩]
  have hpieces : written ".B.org:0443, .B.org:0443" =
      [".B.org:0443".toList, ".B.org:0443".toList] := by decide +kernel
  have hpiece : written ".B.org:0443" = [".B.org:0443".toList] := by decide +kernel
  refine ⟨htrue, hsame _ _ hone htwice fun e => ?_, hmore _ _ hone hmany ?_ htrue⟩
  · rw [hpiece, hpieces]
    simp
  · decide +kernel

end Proxy

end ReleaseFetch
