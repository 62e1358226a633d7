/-
**The quotation marks of the shell.**

The shell takes four typographic marks for the apostrophe, and a script does not write those twice.
A script is read as one literal for each of its values, with code that no value changes, if and only
if no value has a typographic mark.  What stands between two of them in a destination is read as
code.

That a mark in a value is always noticed follows from lengths alone: a mark that is read inside a
literal was written twice.

Main definitions:

* `ReleaseFetch.Script.isQuoteMark` — the marks of the shell;
* `ReleaseFetch.Script.Shape`, `ReleaseFetch.Script.Shape.outline` — which parts a script has, and
  its code;
* `ReleaseFetch.Script.Quotes` — a reader finds one literal for each value, and code that no value
  changes.

Main results:

* `ReleaseFetch.Script.weight_of_read` — the length of a text from what it is read as;
* `ReleaseFetch.Script.quotes_iff` — the values that are read as literals;
* `ReleaseFetch.Script.read_smuggled` — what a destination can be read as;
* `ReleaseFetch.Shell.quotes_script` — the same for the script of a download.
-/

import ReleaseFetch.Proofs.Script.Decoding

set_option autoImplicit false

namespace ReleaseFetch

namespace Script

/-! ### Marks -/

/-- The typographic marks that the shell takes for an apostrophe. -/
def isTypographic (c : Char) : Bool :=
  c == '\u2018' || c == '\u2019' || c == '\u201a' || c == '\u201b'

/-- The marks that the shell opens and ends literals with. -/
def isQuoteMark (c : Char) : Bool := isApostrophe c || isTypographic c

theorem marks_isQuoteMark : Marks isQuoteMark := by
  refine ⟨by decide, fun c hascii hc => ?_⟩
  have hplain : isTypographic c = false := by
    rw [Bool.eq_false_iff]
    intro htypographic
    simp only [isTypographic, Bool.or_eq_true, beq_iff_eq] at htypographic
    rcases htypographic with ((rfl | rfl) | rfl) | rfl <;> exact absurd hascii (by decide)
  simp [isQuoteMark, isApostrophe, hc, hplain]

/-- The marks of the shell that are not the apostrophe are typographic. -/
theorem straight_isQuoteMark {s : String} :
    Straight isQuoteMark s ↔ ∀ c ∈ s.toList, isTypographic c = false := by
  refine forall₂_congr fun c _ => ?_
  rw [← Bool.not_eq_true, isQuoteMark, Bool.or_eq_true, isApostrophe, beq_iff_eq]
  constructor
  · intro h htypographic
    obtain rfl := h (.inr htypographic)
    exact absurd htypographic (by decide)
  · exact fun h hmark => hmark.resolve_right h

/-! ### Lengths -/

section Lengths

variable (isMark : Char → Bool)

/-- How long a literal is as it is written: marks inside take two characters, and there are two
around it. -/
def quotedLength (text : List Char) : Nat := text.length + text.countP isMark + 2

/-- How long a token is as it is written. -/
def Token.weight : Token → Nat
  | .code _ => 1
  | .literal text => quotedLength isMark text.toList

/-- How much of the next token was read already. -/
def Mode.weight : Mode → Nat
  | .outside => 0
  | .inside text => quotedLength isMark text - 1
  | .behind text => quotedLength isMark text

/-- How long tokens are as they are written. -/
def weightOf : List Token → Nat
  | [] => 0
  | t :: ts => t.weight isMark + weightOf ts

variable {isMark}

/-- **The length of a text from what it is read as.** -/
theorem weight_of_readFrom {m : Mode} {cs : List Char} {ts : List Token}
    (h : readFrom isMark m cs = some ts) : weightOf isMark ts = m.weight isMark + cs.length := by
  -- every character either ends up in a token or is one of two marks that stand for one
  induction cs generalizing m ts with
  | nil =>
      cases m with
      | outside => obtain rfl := Option.some.inj h; rfl
      | inside text => cases h
      | behind text =>
          obtain rfl := Option.some.inj h
          simp [weightOf, Token.weight, Mode.weight, quotedLength]
  | cons c cs ih =>
      cases m with
      | outside =>
          rw [readFrom] at h
          split at h
          · rw [ih h]
            simp [Mode.weight, quotedLength]
            omega
          · obtain ⟨us, hus, rfl⟩ := Option.map_eq_some_iff.1 h
            have hrest := ih hus
            simp only [weightOf, Token.weight, Mode.weight, List.length_cons] at hrest ⊢
            omega
      | inside text =>
          rw [readFrom] at h
          split at h
          · rw [ih h]
            simp [Mode.weight, quotedLength]
            omega
          · next hc =>
            rw [ih h]
            simp [Mode.weight, quotedLength, hc]
            omega
      | behind text =>
          rw [readFrom] at h
          split at h
          · next hc =>
            rw [ih h]
            simp [Mode.weight, quotedLength, hc]
            omega
          · obtain ⟨us, hus, rfl⟩ := Option.map_eq_some_iff.1 h
            have hrest := ih hus
            simp [weightOf, Token.weight, Mode.weight, quotedLength] at hrest ⊢
            omega

theorem weight_of_read {script : String} {ts : List Token} (h : read isMark script = some ts) :
    weightOf isMark ts = script.toList.length := by
  rw [weight_of_readFrom h, Mode.weight, Nat.zero_add]

/-- How many marks of the text are not the apostrophe. -/
def stray (isMark : Char → Bool) (cs : List Char) : Nat :=
  cs.countP fun c => isMark c && !isApostrophe c

/-- A literal is longer by the marks in it that are not the apostrophe. -/
theorem quotedLength_stray (hmark : isMark '\'' = true) (cs : List Char) :
    quotedLength isMark cs = quotedLength isApostrophe cs + stray isMark cs := by
  have hcount : cs.countP isMark = cs.countP isApostrophe + stray isMark cs := by
    induction cs with
    | nil => rfl
    | cons c cs ih =>
        rw [stray] at ih ⊢
        rw [List.countP_cons, List.countP_cons, List.countP_cons, ih]
        by_cases hc : c = '\''
        · subst hc
          simp [isApostrophe, hmark]
          omega
        · simp [isApostrophe, hc]
          omega
  rw [quotedLength, quotedLength, hcount]
  omega

/-- Tokens are longer by the marks in their literals that are not the apostrophe. -/
theorem weightOf_stray (hmark : isMark '\'' = true) (ts : List Token) :
    weightOf isMark ts = weightOf isApostrophe ts +
      stray isMark ((ts.filterMap Token.literal?).flatMap String.toList) := by
  induction ts with
  | nil => rfl
  | cons t ts ih =>
      cases t with
      | code c =>
          simp only [weightOf, Token.weight, List.filterMap_cons, Token.literal?]
          omega
      | literal s =>
          have hs := quotedLength_stray hmark s.toList
          simp only [weightOf, Token.weight, List.filterMap_cons, Token.literal?,
            List.flatMap_cons, stray, List.countP_append] at ih hs ⊢
          omega

/-- Tokens that are as long for a reader as for one that knows the apostrophe only have no other
mark of the reader. -/
theorem straight_of_weight (hmark : isMark '\'' = true) {ts : List Token}
    (h : weightOf isMark ts = weightOf isApostrophe ts) {s : String}
    (hs : s ∈ ts.filterMap Token.literal?) : Straight isMark s := by
  rw [weightOf_stray hmark, Nat.add_eq_left, stray, List.countP_eq_zero] at h
  intro c hc hm
  have hboth := h c (List.mem_flatMap.2 ⟨s, hs, hc⟩)
  simpa [hm, isApostrophe] using hboth

end Lengths

/-! ### One literal for each value -/

/-- A token without the text of a literal. -/
def Token.blank : Token → Token
  | .code c => .code c
  | .literal _ => .literal ""

/-- Which parts a script has. -/
structure Shape where
  headers : Nat
  userAgent : Bool
  proxy : Bool
  credential : Bool
  deriving DecidableEq

/-- The code of an argument, with a place for its value. -/
def outlineArgument (name : String) (present : Bool) : List Token :=
  if present then codeOf (argumentCode name) ++ [.literal ""] else []

/-- The code of a credential, with places for its values. -/
def outlineCredential (present : Bool) : List Token :=
  if present then
    codeOf " -ProxyCredential (New-Object PSCredential (" ++ ([.literal ""] ++
      (codeOf ", (ConvertTo-SecureString " ++ ([.literal ""] ++
        codeOf " -AsPlainText -Force)))")))
  else []

/-- **The code of a script**, with places for its values. -/
def Shape.outline (s : Shape) : List Token :=
  codeOf opening ++ ([.literal ""] ++ (codeOf " -UseBasicParsing -OutFile " ++ ([.literal ""] ++
    (codeOf " -Headers " ++ ((codeOf "@\x7b" ++ (Text.joinWith (codeOf "; ")
        (List.replicate s.headers [.literal "", .code '=', .literal ""]) ++ codeOf "\x7d")) ++
      (outlineArgument "UserAgent" s.userAgent ++ (outlineArgument "Proxy" s.proxy ++
        outlineCredential s.credential)))))))

/-- Which parts the script of a job has. -/
def Job.shape (j : Job) : Shape :=
  ⟨j.headers.length, (spoken j.userAgent).isSome, (spoken j.proxy).isSome, j.credential.isSome⟩

/-- **A reader finds one literal for each value, and code that no value changes.** -/
def Quotes (isMark : Char → Bool) (j : Job) : Prop :=
  ∃ ts, read isMark j.render = some ts ∧ ts.filterMap Token.literal? = j.values ∧
    ts.map Token.blank = j.shape.outline

theorem map_blank_codeOf (s : String) : (codeOf s).map Token.blank = codeOf s := by
  simp [codeOf, Token.blank]

theorem literals_codeOf (s : String) : (codeOf s).filterMap Token.literal? = [] := by
  simp [codeOf, Token.literal?]

theorem literals_fields (hs : Headers) :
    (Text.joinWith (codeOf "; ") (hs.map fieldTokens)).filterMap Token.literal? =
      hs.flatMap fun x => [x.1, x.2] := by
  cases hs with
  | nil => rfl
  | cons x hs =>
      rw [List.map_cons, joinWith_cons, List.filterMap_append, List.flatMap_cons]
      congr 1
      induction hs with
      | nil => rfl
      | cons y hs ih =>
          rw [List.map_cons, List.flatMap_cons, List.filterMap_append, List.filterMap_append,
            literals_codeOf, ih]
          rfl

theorem map_joinWith {α β : Type} (f : α → β) (sep : List α) (ps : List (List α)) :
    (Text.joinWith sep ps).map f = Text.joinWith (sep.map f) (ps.map (·.map f)) := by
  cases ps with
  | nil => rfl
  | cons p ps =>
      rw [List.map_cons, joinWith_cons, joinWith_cons, List.map_append, List.map_flatMap,
        List.flatMap_map]
      simp only [List.map_append]

theorem literals_optional (name : String) (value : Option String) :
    (optionalTokens name value).filterMap Token.literal? = (spoken value).toList := by
  unfold optionalTokens
  cases spoken value with
  | none => rfl
  | some text => rw [List.filterMap_append, literals_codeOf]; rfl

theorem map_blank_optional (name : String) (value : Option String) :
    (optionalTokens name value).map Token.blank = outlineArgument name (spoken value).isSome := by
  unfold optionalTokens outlineArgument
  cases spoken value with
  | none => rfl
  | some text => rw [List.map_append, map_blank_codeOf]; rfl

theorem literals_credential (c : Option Credential) :
    (credentialTokens c).filterMap Token.literal? =
      c.toList.flatMap fun c => [c.user, c.password] := by
  cases c with
  | none => rfl
  | some c => simp [credentialTokens, literals_codeOf, Token.literal?]

theorem map_blank_credential (c : Option Credential) :
    (credentialTokens c).map Token.blank = outlineCredential c.isSome := by
  unfold credentialTokens outlineCredential
  cases c with
  | none => rfl
  | some c => simp only [List.map_append, map_blank_codeOf]; rfl

/-- The literals of a script are its values. -/
theorem Job.literals_tokens (j : Job) : j.tokens.filterMap Token.literal? = j.values := by
  simp only [Job.tokens, Job.closingTokens, tableTokens, Job.values, Job.closingValues,
    List.filterMap_append, literals_codeOf, literals_fields, literals_optional,
    literals_credential, List.append_assoc]
  rfl

/-- The code of a script is that of its shape. -/
theorem Job.blank_tokens (j : Job) : j.tokens.map Token.blank = j.shape.outline := by
  have hfields : (j.headers.map fieldTokens).map (·.map Token.blank) =
      List.replicate j.headers.length [.literal "", .code '=', .literal ""] := by
    rw [List.map_map, ← List.map_const']
    rfl
  unfold Job.tokens Job.closingTokens tableTokens Shape.outline
  simp only [List.map_append, map_blank_codeOf, map_joinWith, hfields, map_blank_optional,
    map_blank_credential]
  rfl

/-- Tokens are known from their code and their literals. -/
theorem eq_of_blank {ts us : List Token} (hcode : ts.map Token.blank = us.map Token.blank)
    (hliteral : ts.filterMap Token.literal? = us.filterMap Token.literal?) : ts = us := by
  induction ts generalizing us with
  | nil => simpa using hcode
  | cons t ts ih =>
      cases us with
      | nil => simp at hcode
      | cons u us =>
          obtain ⟨hblank, hrest⟩ := List.cons.inj hcode
          cases t with
          | code c =>
              cases u with
              | literal s => cases hblank
              | code d =>
                  obtain rfl := Token.code.inj hblank
                  rw [ih hrest hliteral]
          | literal s =>
              cases u with
              | code d => cases hblank
              | literal r =>
                  obtain ⟨rfl, hliterals⟩ := List.cons.inj hliteral
                  rw [ih hrest hliterals]

/-- **The values that are read as literals**: those without a mark but the apostrophe. -/
theorem quotes_iff {isMark : Char → Bool} (h : Marks isMark) (j : Job) :
    Quotes isMark j ↔ ∀ v ∈ j.values, Straight isMark v := by
  constructor
  · rintro ⟨ts, hread, hliteral, hcode⟩ v hv
    obtain rfl : ts = j.tokens :=
      eq_of_blank (hcode.trans j.blank_tokens.symm) (hliteral.trans j.literals_tokens.symm)
    have hweight : weightOf isMark j.tokens = weightOf isApostrophe j.tokens := by
      rw [weight_of_read hread, weight_of_read (read_isApostrophe j)]
    exact straight_of_weight h.apostrophe hweight (j.literals_tokens ▸ hv)
  · intro hvalues
    exact ⟨j.tokens, read_render h hvalues, j.literals_tokens, j.blank_tokens⟩

/-! ### What else a destination is read as -/

/-- A text without apostrophes is written as it is. -/
theorem doubled_of_unmarked {cs : List Char} (h : ∀ c ∈ cs, c ≠ '\'') : doubled cs = cs := by
  induction cs with
  | nil => rfl
  | cons c cs ih =>
      have hcs := ih fun d hd => h d (List.mem_cons_of_mem _ hd)
      rw [doubled] at hcs ⊢
      rw [List.flatMap_cons, hcs, if_neg (h c List.mem_cons_self)]
      rfl

theorem doubled_append (as bs : List Char) : doubled (as ++ bs) = doubled as ++ doubled bs :=
  List.flatMap_append

/-- A text with code between two typographic marks. -/
def smuggled (before code after : String) (a b : Char) : String :=
  before ++ String.singleton a ++ code ++ String.singleton b ++ after

/-- **What stands between two typographic marks of a destination is read as code**, and what stands
around them as two literals. -/
theorem read_smuggled {j : Job} {before code after : String} {a b : Char}
    (ha : isTypographic a = true) (hb : isTypographic b = true)
    (hbefore : Straight isQuoteMark before) (hafter : Straight isQuoteMark after)
    (hne : code ≠ "") (hcode : ∀ c ∈ code.toList, isQuoteMark c = false)
    (hdestination : j.destination = smuggled before code after a b)
    (hurl : Straight isQuoteMark j.url)
    (hclosing : ∀ v ∈ j.closingValues, Straight isQuoteMark v) :
    read isQuoteMark j.render =
      some (codeOf opening ++ (.literal j.url :: (codeOf " -UseBasicParsing -OutFile " ++
        (.literal before :: (codeOf code ++ (.literal after :: j.closingTokens)))))) := by
  have hmark := marks_isQuoteMark
  have hplain : ∀ c ∈ code.toList, c ≠ '\'' := by
    rintro c hc rfl
    exact absurd (hcode _ hc) (by decide)
  have hchar : ∀ {c}, isTypographic c = true → isQuoteMark c = true ∧ doubled [c] = [c] := by
    intro c hc
    refine ⟨by simp [isQuoteMark, hc], doubled_of_unmarked ?_⟩
    rintro d hd rfl
    obtain rfl := List.mem_singleton.1 hd
    exact absurd hc (by decide)
  -- the first mark ends the literal that the script opens, the second one opens another
  have hquote : (quote j.destination).toList ++ j.closing.toList =
      '\'' :: (doubled before.toList ++ (a :: (code.toList ++
        (b :: (doubled after.toList ++ ('\'' :: j.closing.toList)))))) := by
    rw [hdestination, quote, smuggled]
    simp only [String.toList_append, String.toList_singleton, String.toList_ofList,
      doubled_append, (hchar ha).2, (hchar hb).2, doubled_of_unmarked hplain]
    simp
  have hlast := (reads_closing hmark hclosing).between hmark.apostrophe (hchar hb).1
    hmark.apostrophe hafter (unmarked_closing hmark j)
  have hnext : Unmarked isQuoteMark (code.toList ++
      (b :: (doubled after.toList ++ ('\'' :: j.closing.toList)))) := by
    intro c hc
    cases htext : code.toList with
    | nil => exact absurd (String.toList_eq_nil_iff.1 htext) hne
    | cons d ds =>
        rw [htext] at hc
        obtain rfl := Option.some.inj hc
        exact hcode d (htext ▸ List.mem_cons_self)
  refine read_of_destination hmark hurl ?_
  rw [hquote]
  exact (hlast.code hcode).between hmark.apostrophe hmark.apostrophe (hchar ha).1 hbefore hnext

theorem spoken_spoken (value : Option String) : spoken (spoken value) = spoken value := by
  rw [spoken_eq_filter, spoken_eq_filter, Option.filter_filter]
  simp

/-- Arguments that have nothing to say have no value in the script. -/
theorem Job.values_normal (j : Job) : j.normal.values = j.values := by
  simp only [Job.values, Job.closingValues, Job.normal, spoken_spoken]

end Script

namespace Shell

variable {h : Host} {url : String} {destination : Path} {o : Options}

/-- **The shell reads the script of a download as it is meant if and only if no value of the
download has a typographic mark.** -/
theorem quotes_script {j : Script.Job} {w w' : World}
    (hjob : (job h url destination o).perform w = (.ok j, w')) :
    ∃ p, Conveys h url destination o p ∧ j.values = p.values ∧
      (Script.Quotes Script.isQuoteMark j ↔
        ∀ v ∈ p.values, ∀ c ∈ v.toList, Script.isTypographic c = false) := by
  refine ⟨j.normal, conveys_of_jobFor ((job_yields h url destination o).eq hjob).symm,
    j.values_normal.symm, ?_⟩
  rw [Script.quotes_iff Script.marks_isQuoteMark, j.values_normal]
  exact forall₂_congr fun v _ => Script.straight_isQuoteMark

theorem quotes_script_tangled :
    (job ⟨"win32", "AMD64", []⟩ "https://a.org/'x" ⟨.here, ["it's"]⟩ tangled).Yields
        (.ok tangledJob) ∧
      ∃ p, Conveys ⟨"win32", "AMD64", []⟩ "https://a.org/'x" ⟨.here, ["it's"]⟩ tangled p ∧
        tangledJob.values = p.values ∧ (Script.Quotes Script.isQuoteMark tangledJob ↔
          ∀ v ∈ p.values, ∀ c ∈ v.toList, Script.isTypographic c = false) := by
  have hyields := job_yields_tangled
  obtain ⟨records, hperform⟩ := id hyields
  exact ⟨hyields, quotes_script (hperform ⟨⟨[], []⟩, [], [], [], [], [], ""⟩)⟩

/-- A download to a file with code between two typographic marks in its name. -/
def smuggling : Path := ⟨.here, ["a\u2019; calc; \u2019b"]⟩

/-- What the script of this download has to say. -/
def smugglingJob : Script.Job :=
  ⟨"https://a.org/x", "a\u2019; calc; \u2019b", [], none, none, none⟩

/-- The shell finds three literals in a script with two values, and runs what stands between the
second and the third. -/
theorem not_quotes_smuggling :
    (job ⟨"win32", "AMD64", []⟩ "https://a.org/x" smuggling
        ⟨[], none, defaultTrustedHost, none⟩).Yields (.ok smugglingJob) ∧
      ¬Script.Quotes Script.isQuoteMark smugglingJob ∧
      Script.read Script.isQuoteMark smugglingJob.render =
        some (Script.codeOf Script.opening ++ (.literal "https://a.org/x" ::
          (Script.codeOf " -UseBasicParsing -OutFile " ++ (.literal "a" ::
            (Script.codeOf "; calc; " ++
              (.literal "b" :: Script.codeOf " -Headers @\x7b\x7d")))))) := by
  have hjob : jobFor ⟨"win32", "AMD64", []⟩ "https://a.org/x" smuggling
      ⟨[], none, defaultTrustedHost, none⟩ = .ok smugglingJob := by decide +kernel
  have hclosing : smugglingJob.closingTokens = Script.codeOf " -Headers @\x7b\x7d" := by
    decide +kernel
  refine ⟨hjob ▸ job_yields _ _ _ _, fun hquotes => ?_, ?_⟩
  · have hstraight := (Script.quotes_iff Script.marks_isQuoteMark _).1 hquotes
      smugglingJob.destination (by decide +kernel)
    exact absurd (hstraight '\u2019' (by decide +kernel) (by decide)) (by decide)
  · have hvalues : smugglingJob.closingValues = [] := by decide +kernel
    have hcode : ∀ c ∈ "; calc; ".toList, Script.isQuoteMark c = false := by simp; decide
    rw [← hclosing]
    exact Script.read_smuggled (a := '\u2019') (b := '\u2019') (by decide) (by decide)
      (Script.straight_isQuoteMark.2 (by simp; decide))
      (Script.straight_isQuoteMark.2 (by simp; decide)) (by decide +kernel) hcode
      (by decide +kernel) (Script.straight_isQuoteMark.2 (by simp [smugglingJob]; decide))
      (by simp [hvalues])

end Shell

end ReleaseFetch
