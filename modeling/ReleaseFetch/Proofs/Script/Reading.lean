/-
**Scripts read back.**

A reader of the shell takes a script apart into code and literals.  Which characters it takes for a
quotation mark is its own affair: the straight apostrophe is one for every reader, and the shell
takes four typographic marks for the same.  Inside a literal two marks in a row stand for one of
them, and a single one ends it.

Whatever the marks of a reader are, it reads every value of a script back as one literal as long as
the apostrophe is the only mark in the values.

Main definitions:

* `ReleaseFetch.Script.Token`, `ReleaseFetch.Script.read` — code and literals, and the reader;
* `ReleaseFetch.Script.Reads` — what a part of a script is read as, whatever follows it;
* `ReleaseFetch.Script.Job.tokens`, `ReleaseFetch.Script.Job.values` — what a script is meant to be
  read as, and the texts that it quotes.

Main results:

* `ReleaseFetch.Script.Reads.quote` — a literal is read back;
* `ReleaseFetch.Script.read_render` — a script is read as it is meant, if its values have no mark
  but the apostrophe.
-/

import ReleaseFetch.Transfer.Script

set_option autoImplicit false

namespace ReleaseFetch.Script

/-! ### The reader -/

/-- The mark that literals are written with. -/
def isApostrophe (c : Char) : Bool := c == '\''

/-- What a reader finds in a script: a character of code, or the text of a literal. -/
inductive Token where
  | code (c : Char)
  | literal (text : String)
  deriving DecidableEq

/-- Where a reader stands: in code, in a literal, or behind a mark in a literal, which ends it
unless another mark follows.  The text of the literal is kept last character first. -/
inductive Mode where
  | outside
  | inside (text : List Char)
  | behind (text : List Char)

/-- Reads the rest of a script; `none` if a literal is not ended. -/
def readFrom (isMark : Char → Bool) : Mode → List Char → Option (List Token)
  | .outside, [] => some []
  | .inside _, [] => none
  | .behind text, [] => some [.literal (String.ofList text.reverse)]
  | .outside, c :: rest =>
    if isMark c then readFrom isMark (.inside []) rest
    else (readFrom isMark .outside rest).map (.code c :: ·)
  | .inside text, c :: rest =>
    if isMark c then readFrom isMark (.behind text) rest
    else readFrom isMark (.inside (c :: text)) rest
  | .behind text, c :: rest =>
    if isMark c then readFrom isMark (.inside (c :: text)) rest
    else (readFrom isMark .outside rest).map
      ([.literal (String.ofList text.reverse), .code c] ++ ·)

/-- Reads a script. -/
def read (isMark : Char → Bool) (script : String) : Option (List Token) :=
  readFrom isMark .outside script.toList

/-- The text of a literal. -/
def Token.literal? : Token → Option String
  | .literal text => some text
  | .code _ => none

/-- A text as code. -/
def codeOf (s : String) : List Token := s.toList.map .code

/-! ### Parts of a script -/

section Parts

variable {isMark : Char → Bool}

/-- The text does not start with a mark. -/
def Unmarked (isMark : Char → Bool) (cs : List Char) : Prop := ∀ c ∈ cs.head?, isMark c = false

/-- What characters are read as, whatever follows that does not start with a mark. -/
def Reads (isMark : Char → Bool) (cs : List Char) (ts : List Token) : Prop :=
  ∀ rest, Unmarked isMark rest →
    readFrom isMark .outside (cs ++ rest) = (readFrom isMark .outside rest).map (ts ++ ·)

/-- The only mark of the text is the apostrophe. -/
def Straight (isMark : Char → Bool) (s : String) : Prop :=
  ∀ c ∈ s.toList, isMark c = true → c = '\''

theorem Unmarked.append {cs rest : List Char} (hcs : Unmarked isMark cs)
    (hrest : Unmarked isMark rest) : Unmarked isMark (cs ++ rest) := by
  cases cs with
  | nil => exact hrest
  | cons c cs => exact hcs

theorem reads_nil : Reads isMark [] [] := by
  intro rest _
  rw [List.nil_append]
  cases readFrom isMark .outside rest <;> rfl

/-- Text without marks is code, whatever follows it. -/
theorem Reads.code {s : String} (h : ∀ c ∈ s.toList, isMark c = false) {cs : List Char}
    {ts : List Token} (hcs : Reads isMark cs ts) :
    Reads isMark (s.toList ++ cs) (codeOf s ++ ts) := by
  unfold codeOf
  generalize s.toList = ds at h
  induction ds with
  | nil => exact hcs
  | cons d ds ih =>
      intro rest hrest
      have hd : ¬isMark d = true := by simp [h d (by simp)]
      have hds := ih (fun c hc => h c (List.mem_cons_of_mem _ hc)) rest hrest
      rw [List.cons_append, List.cons_append, readFrom, if_neg hd, hds, Option.map_map]
      rfl

/-- Inside a literal, doubled apostrophes are read as single ones. -/
theorem readFrom_doubled (hmark : isMark '\'' = true) {cs : List Char}
    (h : ∀ c ∈ cs, isMark c = true → c = '\'') (text rest : List Char) :
    readFrom isMark (.inside text) (doubled cs ++ rest) =
      readFrom isMark (.inside (cs.reverse ++ text)) rest := by
  induction cs generalizing text with
  | nil => rfl
  | cons c cs ih =>
      have hcs := ih fun d hd => h d (List.mem_cons_of_mem _ hd)
      by_cases hc : c = '\''
      · subst hc
        have hdoubled : doubled ('\'' :: cs) = '\'' :: '\'' :: doubled cs := rfl
        rw [hdoubled, List.cons_append, List.cons_append, readFrom, if_pos hmark, readFrom,
          if_pos hmark, hcs]
        simp
      · have hdoubled : doubled (c :: cs) = c :: doubled cs := by
          simp only [doubled, List.flatMap_cons, if_neg hc]
          rfl
        have hplain : ¬isMark c = true := fun hm => hc (h c (by simp) hm)
        rw [hdoubled, List.cons_append, readFrom, if_neg hplain, hcs]
        simp

/-- Behind a literal, what does not start with a mark is read as code. -/
theorem readFrom_behind {text cs : List Char} (h : Unmarked isMark cs) :
    readFrom isMark (.behind text) cs =
      (readFrom isMark .outside cs).map (.literal (String.ofList text.reverse) :: ·) := by
  cases cs with
  | nil => rfl
  | cons c cs =>
      have hc : ¬isMark c = true := by simp [h c rfl]
      rw [readFrom, if_neg hc, readFrom, if_neg hc, Option.map_map]
      rfl

/-- A text between two marks is a literal, if the apostrophe is the only mark in it and what follows
does not start with a mark. -/
theorem Reads.between (hmark : isMark '\'' = true) {a b : Char} (ha : isMark a = true)
    (hb : isMark b = true) {s : String} (h : Straight isMark s) {cs : List Char} {ts : List Token}
    (hcs : Reads isMark cs ts) (hnext : Unmarked isMark cs) :
    Reads isMark (a :: (doubled s.toList ++ (b :: cs))) (.literal s :: ts) := by
  intro rest hrest
  have hbody := readFrom_doubled hmark h [] (b :: (cs ++ rest))
  rw [List.append_nil] at hbody
  rw [List.cons_append, List.append_assoc, List.cons_append, readFrom, if_pos ha, hbody, readFrom,
    if_pos hb, readFrom_behind (hnext.append hrest), hcs rest hrest, Option.map_map,
    List.reverse_reverse, String.ofList_toList]
  rfl

/-- **A literal is read back**, if the apostrophe is the only mark in it. -/
theorem Reads.quote (hmark : isMark '\'' = true) {s : String} (h : Straight isMark s)
    {cs : List Char} {ts : List Token} (hcs : Reads isMark cs ts) (hnext : Unmarked isMark cs) :
    Reads isMark ((quote s).toList ++ cs) (.literal s :: ts) := by
  have hquote : (Script.quote s).toList ++ cs = '\'' :: (doubled s.toList ++ ('\'' :: cs)) := by
    simp [Script.quote]
  rw [hquote]
  exact hcs.between hmark hmark hmark h hnext

end Parts

/-! ### What a script is meant to be read as -/

/-- The tokens of a field of the table. -/
def fieldTokens (x : String × String) : List Token := [.literal x.1, .code '=', .literal x.2]

/-- The tokens of the table. -/
def tableTokens (hs : Headers) : List Token :=
  codeOf "@\x7b" ++ (Text.joinWith (codeOf "; ") (hs.map fieldTokens) ++ codeOf "\x7d")

/-- The text of an argument, if there is something to say. -/
def spoken : Option String → Option String
  | some value => if value.isEmpty then none else some value
  | none => none

/-- The code in front of the value of an argument. -/
def argumentCode (name : String) : String := s!" -{name} "

/-- The tokens of an argument. -/
def optionalTokens (name : String) (value : Option String) : List Token :=
  match spoken value with
  | some text => codeOf (argumentCode name) ++ [.literal text]
  | none => []

/-- The tokens of a credential. -/
def credentialTokens : Option Credential → List Token
  | some c =>
    codeOf " -ProxyCredential (New-Object PSCredential (" ++ ([.literal c.user] ++
      (codeOf ", (ConvertTo-SecureString " ++ ([.literal c.password] ++
        codeOf " -AsPlainText -Force)))")))
  | none => []

/-- The code in front of the first value. -/
def opening : String :=
  "[Net.ServicePointManager]::SecurityProtocol = [Net.SecurityProtocolType]::Tls12; " ++
    "Invoke-WebRequest -URI "

namespace Job

/-- The tokens behind the destination. -/
def closingTokens (j : Job) : List Token :=
  codeOf " -Headers " ++ (tableTokens j.headers ++ (optionalTokens "UserAgent" j.userAgent ++
    (optionalTokens "Proxy" j.proxy ++ credentialTokens j.credential)))

/-- **What a script is meant to be read as.** -/
def tokens (j : Job) : List Token :=
  codeOf opening ++ ([.literal j.url] ++ (codeOf " -UseBasicParsing -OutFile " ++
    ([.literal j.destination] ++ j.closingTokens)))

/-- The values behind the destination. -/
def closingValues (j : Job) : List String :=
  j.headers.flatMap (fun x => [x.1, x.2]) ++ (spoken j.userAgent).toList ++
    (spoken j.proxy).toList ++ (j.credential.toList.flatMap fun c => [c.user, c.password])

/-- The texts that a script quotes, in their order. -/
def values (j : Job) : List String := j.url :: j.destination :: j.closingValues

end Job

/-! ### Scripts are read as they are meant -/

section Render

variable {isMark : Char → Bool}

/-- A reader takes the apostrophe for a mark, and no other character of plain text. -/
structure Marks (isMark : Char → Bool) : Prop where
  apostrophe : isMark '\'' = true
  ascii : ∀ c, c.toNat < 0x80 → c ≠ '\'' → isMark c = false

/-- The text is not empty, it is plain, and it has no apostrophe. -/
def plainCode (s : String) : Bool :=
  !s.toList.isEmpty && s.toList.all fun c => decide (c.toNat < 0x80) && c != '\''

namespace Marks

theorem of_plainCode (h : Marks isMark) {s : String} (hs : plainCode s = true) :
    ∀ c ∈ s.toList, isMark c = false := by
  intro c hc
  have hplain := List.all_eq_true.1 (Bool.and_eq_true_iff.1 hs).2 c hc
  simp only [Bool.and_eq_true, decide_eq_true_eq, bne_iff_ne] at hplain
  exact h.ascii c hplain.1 hplain.2

/-- Code of the script in front of a part of it. -/
theorem code (h : Marks isMark) {s : String} (hs : plainCode s = true) {cs : List Char}
    {ts : List Token} (hcs : Reads isMark cs ts) :
    Reads isMark (s.toList ++ cs) (codeOf s ++ ts) :=
  hcs.code (h.of_plainCode hs)

/-- Code of the script does not start with a mark. -/
theorem unmarked (h : Marks isMark) {s : String} (hs : plainCode s = true) (rest : List Char) :
    Unmarked isMark (s.toList ++ rest) := by
  intro c hc
  cases htext : s.toList with
  | nil => simp [plainCode, htext] at hs
  | cons d ds =>
      rw [htext] at hc
      obtain rfl := Option.some.inj hc
      exact h.of_plainCode hs d (htext ▸ List.mem_cons_self)

end Marks

theorem unmarked_nil : Unmarked isMark [] := fun _ hc => by simp at hc

/-! ### Reading the parts of a script -/

theorem joinWith_cons {α : Type} (sep p : List α) (ps : List (List α)) :
    Text.joinWith sep (p :: ps) = p ++ ps.flatMap (sep ++ ·) := by
  induction ps generalizing p with
  | nil => simp [Text.joinWith]
  | cons q qs ih => rw [Text.joinWith, ih, List.flatMap_cons]; simp

/-- The characters of a field of the table. -/
def fieldChars (x : String × String) : List Char :=
  (quote x.1).toList ++ ("=".toList ++ (quote x.2).toList)

theorem headerTable_toList (hs : Headers) :
    (headerTable hs).toList =
      "@\x7b".toList ++ (Text.joinWith "; ".toList (hs.map fieldChars) ++ "\x7d".toList) := by
  have htable : headerTable hs = "@\x7b" ++
      Text.join "; " (hs.map fun x => quote x.1 ++ "=" ++ quote x.2) ++ "\x7d" := rfl
  have hfields : (hs.map fun x => quote x.1 ++ "=" ++ quote x.2).map String.toList =
      hs.map fieldChars := by
    rw [List.map_map]
    refine List.map_congr_left fun x _ => ?_
    simp only [Function.comp_apply, String.toList_append, List.append_assoc]
    rfl
  simp only [htable, Text.join, hfields, String.toList_append, String.toList_ofList,
    List.append_assoc]

section Parts

variable {cs : List Char} {ts : List Token}

/-- A field of the table. -/
theorem reads_field (h : Marks isMark) {x : String × String} (hname : Straight isMark x.1)
    (hvalue : Straight isMark x.2) (hcs : Reads isMark cs ts) (hnext : Unmarked isMark cs) :
    Reads isMark (fieldChars x ++ cs) (fieldTokens x ++ ts) := by
  have hrest : Reads isMark ("=".toList ++ ((quote x.2).toList ++ cs))
      (codeOf "=" ++ (.literal x.2 :: ts)) :=
    h.code (by decide) (hcs.quote h.apostrophe hvalue hnext)
  have hfield := hrest.quote h.apostrophe hname (h.unmarked (by decide) _)
  rw [fieldChars, List.append_assoc, List.append_assoc]
  exact hfield

/-- The values of the headers have no mark but the apostrophe. -/
def StraightHeaders (isMark : Char → Bool) (hs : Headers) : Prop :=
  ∀ x ∈ hs, Straight isMark x.1 ∧ Straight isMark x.2

/-- The fields behind the first one. -/
theorem reads_fields (h : Marks isMark) {hs : Headers} (hhs : StraightHeaders isMark hs)
    (hcs : Reads isMark cs ts) (hnext : Unmarked isMark cs) :
    Reads isMark ((hs.map fieldChars).flatMap ("; ".toList ++ ·) ++ cs)
        ((hs.map fieldTokens).flatMap (codeOf "; " ++ ·) ++ ts) ∧
      Unmarked isMark ((hs.map fieldChars).flatMap ("; ".toList ++ ·) ++ cs) := by
  induction hs with
  | nil => exact ⟨hcs, hnext⟩
  | cons x hs ih =>
      obtain ⟨hread, hmark⟩ := ih fun y hy => hhs y (List.mem_cons_of_mem _ hy)
      obtain ⟨hname, hvalue⟩ := hhs x List.mem_cons_self
      simp only [List.map_cons, List.flatMap_cons, List.append_assoc]
      exact ⟨h.code (by decide) (reads_field h hname hvalue hread hmark),
        h.unmarked (by decide) _⟩

/-- The table. -/
theorem reads_table (h : Marks isMark) {hs : Headers} (hhs : StraightHeaders isMark hs)
    (hcs : Reads isMark cs ts) :
    Reads isMark ((headerTable hs).toList ++ cs) (tableTokens hs ++ ts) := by
  have hend := h.code (s := "\x7d") (by decide) hcs
  rw [headerTable_toList, tableTokens, List.append_assoc, List.append_assoc, List.append_assoc,
    List.append_assoc]
  refine h.code (by decide) ?_
  cases hs with
  | nil => exact hend
  | cons x hs =>
      obtain ⟨hread, hmark⟩ := reads_fields h (fun y hy => hhs y (List.mem_cons_of_mem _ hy)) hend
        (h.unmarked (by decide) _)
      obtain ⟨hname, hvalue⟩ := hhs x List.mem_cons_self
      simp only [List.map_cons, joinWith_cons, List.append_assoc]
      exact reads_field h hname hvalue hread hmark

theorem optional_toList (name : String) (value : Option String) :
    (optional name value).toList =
      ((spoken value).map fun text => (argumentCode name).toList ++ (quote text).toList).getD [] := by
  cases value with
  | none => rfl
  | some text =>
      cases hempty : text.isEmpty with
      | true => simp [optional, spoken, hempty]
      | false =>
          simp only [optional, argumentCode, spoken, hempty, Bool.false_eq_true, if_false,
            Option.map_some, Option.getD_some, String.toList_append]
          rfl

/-- An argument that may be left out. -/
theorem reads_optional (h : Marks isMark) (name : String) {value : Option String}
    (hcode : plainCode (argumentCode name) = true) (hvalue : ∀ v ∈ spoken value, Straight isMark v)
    (hcs : Reads isMark cs ts) (hnext : Unmarked isMark cs) :
    Reads isMark ((optional name value).toList ++ cs) (optionalTokens name value ++ ts) ∧
      Unmarked isMark ((optional name value).toList ++ cs) := by
  rw [optional_toList, optionalTokens]
  cases hspoken : spoken value with
  | none => exact ⟨hcs, hnext⟩
  | some text =>
      simp only [Option.map_some, Option.getD_some, List.append_assoc]
      exact ⟨h.code hcode (hcs.quote h.apostrophe (hvalue text hspoken) hnext),
        h.unmarked hcode _⟩

theorem Credential.argument_eq (c : Credential) :
    c.argument = " -ProxyCredential (New-Object PSCredential (" ++ (quote c.user ++
      (", " ++ "(ConvertTo-SecureString " ++ (quote c.password ++
        " -AsPlainText -Force)))"))) := by
  unfold Credential.argument
  simp only [toString, String.append_assoc, -String.reduceAppend]

/-- A credential. -/
theorem reads_credential (h : Marks isMark) (credential : Option Credential)
    (hvalue : ∀ c ∈ credential, Straight isMark c.user ∧ Straight isMark c.password) :
    Reads isMark ((credential.map Credential.argument).getD "").toList
        (credentialTokens credential) ∧
      Unmarked isMark ((credential.map Credential.argument).getD "").toList := by
  cases credential with
  | none => exact ⟨reads_nil, unmarked_nil⟩
  | some c =>
      obtain ⟨huser, hpassword⟩ := hvalue c rfl
      have hend : Reads isMark " -AsPlainText -Force)))".toList
          (codeOf " -AsPlainText -Force)))") := by
        simpa using h.code (s := " -AsPlainText -Force)))") (by decide +kernel) reads_nil
      have hnext : Unmarked isMark " -AsPlainText -Force)))".toList := by
        simpa using h.unmarked (s := " -AsPlainText -Force)))") (by decide +kernel) []
      have hcomma : ", " ++ "(ConvertTo-SecureString " = ", (ConvertTo-SecureString " := rfl
      rw [Option.map_some, Option.getD_some, Credential.argument_eq, hcomma]
      simp only [String.toList_append]
      exact ⟨h.code (by decide +kernel) ((h.code (by decide +kernel)
          (hend.quote h.apostrophe hpassword hnext)).quote h.apostrophe huser
            (h.unmarked (by decide +kernel) _)),
        h.unmarked (by decide +kernel) _⟩

end Parts

/-- What is behind the destination. -/
def Job.closing (j : Job) : String :=
  " " ++ "-Headers " ++ (headerTable j.headers ++ (optional "UserAgent" j.userAgent ++
    (optional "Proxy" j.proxy ++ (j.credential.map Credential.argument).getD "")))

theorem Job.closing_toList (j : Job) :
    j.closing.toList = " -Headers ".toList ++ ((headerTable j.headers).toList ++
      ((optional "UserAgent" j.userAgent).toList ++ ((optional "Proxy" j.proxy).toList ++
        ((j.credential.map Credential.argument).getD "").toList))) := by
  have hspace : " " ++ "-Headers " = " -Headers " := rfl
  rw [Job.closing, hspace]
  simp only [String.toList_append]

theorem Job.render_eq (j : Job) :
    j.render = opening ++ (quote j.url ++ (" -UseBasicParsing -OutFile " ++ (quote j.destination ++
      j.closing))) := by
  unfold Job.render Job.closing opening
  simp only [toString, String.append_assoc, -String.reduceAppend]

theorem unmarked_closing (h : Marks isMark) (j : Job) : Unmarked isMark j.closing.toList := by
  rw [Job.closing_toList]
  exact h.unmarked (by decide +kernel) _

/-- What is behind the destination, if its values have no mark but the apostrophe. -/
theorem reads_closing (h : Marks isMark) {j : Job}
    (hvalues : ∀ v ∈ j.closingValues, Straight isMark v) :
    Reads isMark j.closing.toList j.closingTokens := by
  rw [Job.closing_toList]
  simp only [Job.closingValues, List.mem_append, List.mem_flatMap, Option.mem_toList] at hvalues
  obtain ⟨hcredential, hmark⟩ := reads_credential h j.credential fun c hc =>
    ⟨hvalues _ (.inr ⟨c, hc, by simp⟩), hvalues _ (.inr ⟨c, hc, by simp⟩)⟩
  obtain ⟨hproxy, hmark⟩ := reads_optional h "Proxy" (by decide +kernel)
    (fun v hv => hvalues v (.inl (.inr hv))) hcredential hmark
  obtain ⟨hagent, -⟩ := reads_optional h "UserAgent" (by decide +kernel)
    (fun v hv => hvalues v (.inl (.inl (.inr hv)))) hproxy hmark
  refine h.code (by decide +kernel) (reads_table h ?_ hagent)
  intro x hx
  exact ⟨hvalues _ (.inl (.inl (.inl ⟨x, hx, by simp⟩))),
    hvalues _ (.inl (.inl (.inl ⟨x, hx, by simp⟩)))⟩

/-- A script, from what its destination and all behind it are read as. -/
theorem read_of_destination (h : Marks isMark) {j : Job} {ts : List Token}
    (hurl : Straight isMark j.url)
    (hrest : Reads isMark ((quote j.destination).toList ++ j.closing.toList) ts) :
    read isMark j.render =
      some (codeOf opening ++ (.literal j.url :: (codeOf " -UseBasicParsing -OutFile " ++ ts))) := by
  have hfile := h.code (s := " -UseBasicParsing -OutFile ") (by decide +kernel) hrest
  have hmarked := h.unmarked (s := " -UseBasicParsing -OutFile ") (by decide +kernel)
    ((quote j.destination).toList ++ j.closing.toList)
  have hscript := h.code (s := opening) (by decide +kernel) (hfile.quote h.apostrophe hurl hmarked)
    [] unmarked_nil
  rw [List.append_nil] at hscript
  rw [read, Job.render_eq]
  simp only [String.toList_append]
  rw [hscript, readFrom, Option.map_some, List.append_nil]

/-- **A script is read as it is meant**, if its values have no mark but the apostrophe. -/
theorem read_render (h : Marks isMark) {j : Job} (hvalues : ∀ v ∈ j.values, Straight isMark v) :
    read isMark j.render = some j.tokens := by
  have hclosing := reads_closing h (j := j) fun v hv =>
    hvalues v (List.mem_cons_of_mem _ (List.mem_cons_of_mem _ hv))
  exact read_of_destination h (hvalues j.url (by simp [Job.values]))
    (hclosing.quote h.apostrophe (hvalues j.destination (by simp [Job.values]))
      (unmarked_closing h j))

end Render

end ReleaseFetch.Script
