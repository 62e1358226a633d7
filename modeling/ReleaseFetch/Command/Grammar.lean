/-
**Reading a command line.**

A command line is a list of words.  A word that starts with a dash may be an option: it is matched
by its full name, by a prefix that fits one long option only, or as several one-letter options in
one.  An option either prints something and ends the reading, or marks a choice, or takes a value,
which follows an equals sign or is the next word.  What is neither an option nor the value of one is
left over, or, where commands are read, it starts the words of a command, to which all that follows
belongs.

Main definitions:

* `ReleaseFetch.CommandLine.Value` — the value of an option;
* `ReleaseFetch.CommandLine.Opt`, `ReleaseFetch.CommandLine.Grammar` — options and sets of them;
* `ReleaseFetch.CommandLine.Ending` — why a reading ends early;
* `ReleaseFetch.CommandLine.Grammar.sort` — words told apart before any of them is used;
* `ReleaseFetch.CommandLine.Grammar.parse` — what the words choose, and what is left over.
-/

import ReleaseFetch.Text.Digit
import ReleaseFetch.Text.Quoted
import ReleaseFetch.Text.Split

set_option autoImplicit false

namespace ReleaseFetch.CommandLine

/-! ### Options -/

/-- The value of an option.  Two dashes after an equals sign are dropped, which leaves an option
that is given without a value. -/
inductive Value where
  | absent
  | dropped
  | text (s : String)
  deriving DecidableEq

/-- The value that follows an equals sign. -/
def Value.ofText (s : String) : Value := if s = "--" then .dropped else .text s

/-- The value, if it is a text that is not empty. -/
def Value.nonEmpty? : Value → Option String
  | .text s => if s.isEmpty then none else some s
  | _ => none

/-- What an option does to the choices made so far. -/
inductive Effect (σ : Type) where
  | print (text : String)
  | mark (f : σ → σ)
  | take (f : Value → σ → σ)

/-- An option: its names, and what it does. -/
structure Opt (σ : Type) where
  names : List String
  effect : Effect σ

/-- The option as it is named in a message. -/
def Opt.label {σ : Type} (o : Opt σ) : String := Text.join "/" o.names

/-- A set of options, with the name and the usage of the program they belong to. -/
structure Grammar (σ : Type) where
  program : String
  usage : String
  options : List (Opt σ)

/-- Why a reading ends early: something is printed, or the words are refused. -/
inductive Ending where
  | printed (text : String)
  | refused (text : String)
  deriving DecidableEq

namespace Grammar

variable {σ : Type}

/-- Refuses the words, with the usage. -/
def refuse {α : Type} (g : Grammar σ) (text : String) : Except Ending α :=
  .error (.refused (g.usage ++ s!"{g.program}: error: {text}\n"))

/-- All names, each with its option. -/
def names (g : Grammar σ) : List (String × Opt σ) :=
  g.options.flatMap fun o => o.names.map fun n => (n, o)

/-- The option of a name. -/
def find? (g : Grammar σ) (name : String) : Option (Opt σ) := g.names.lookup name

/-! ### Single words -/

/-- An option that a word names, with the value that the word carries. -/
structure Match (σ : Type) where
  option : Opt σ
  name : String
  given : Option (List Char)

/-- What a word is. -/
inductive Word (σ : Type) where
  | plain
  | dashes
  | unknown
  | option (m : Match σ)

/-- The name before the first equals sign, and the value after it, if there is one. -/
def cutValue (cs : List Char) : String × Option (List Char) :=
  match Text.cutFirst? '=' cs with
  | some (name, value) => (String.ofList name, some value)
  | none => (String.ofList cs, none)

/-- The word is a full name with a value. -/
def assigned? (g : Grammar σ) (cs : List Char) : Option (Match σ) :=
  match cutValue cs with
  | (name, some value) => (g.find? name).map fun o => ⟨o, name, some value⟩
  | _ => none

/-- The long options that a word may be short for. -/
def abbreviated (g : Grammar σ) (cs : List Char) : List (Match σ) :=
  let (start, value) := cutValue cs
  (g.names.filter fun x => start.toList.isPrefixOf x.1.toList).map fun (name, o) =>
    ⟨o, name, value⟩

/-- The one-letter option that a word starts with, and any option that the word is short for. -/
def clustered (g : Grammar σ) (cs : List Char) : List (Match σ) :=
  g.names.filterMap fun (name, o) =>
    if name.toList = cs.take 2 then some ⟨o, name, some (cs.drop 2)⟩
    else if cs.isPrefixOf name.toList then some ⟨o, name, none⟩
    else none

/-- The options that a word may stand for. -/
def candidates (g : Grammar σ) (cs : List Char) : List (Match σ) :=
  match cs with
  | '-' :: '-' :: _ => g.abbreviated cs
  | _ => g.clustered cs

/-- The text after a dash is a number, before a line feed at most. -/
def isNumber (cs : List Char) : Bool :=
  let isDecimal (c : Char) := (Text.digitValue? c).isSome
  let body := if cs.getLast? == some '\n' then cs.dropLast else cs
  match body.dropWhile isDecimal with
  | [] => !body.isEmpty
  | '.' :: fraction => !fraction.isEmpty && fraction.all isDecimal
  | _ => false

/-- What a word is that starts with a dash and names no option in full. -/
def readDashed (g : Grammar σ) (cs : List Char) : Except Ending (Word σ) :=
  match g.assigned? cs with
  | some m => .ok (.option m)
  | none =>
    match g.candidates cs with
    | [m] => .ok (.option m)
    | [] => .ok (if isNumber (cs.drop 1) || cs.contains ' ' then .plain else .unknown)
    | ms =>
      let fitting := Text.join ", " (ms.map (·.name))
      g.refuse s!"ambiguous option: {String.ofList cs} could match {fitting}"

/-- What a word is. -/
def read (g : Grammar σ) (word : String) : Except Ending (Word σ) :=
  match word.toList with
  | '-' :: rest =>
    match g.find? word with
    | some o => .ok (.option ⟨o, word, none⟩)
    | none => if rest.isEmpty then .ok .plain else g.readDashed ('-' :: rest)
  | _ => .ok .plain

/-- Tells the words apart.  After two dashes no word is an option. -/
def sort (g : Grammar σ) : List String → Except Ending (List (String × Word σ))
  | [] => .ok []
  | word :: rest =>
    if word = "--" then .ok ((word, .dashes) :: rest.map fun w => (w, .plain))
    else do
      let first ← g.read word
      let others ← g.sort rest
      return (word, first) :: others

/-! ### Options with their values -/

/-- The option takes a value. -/
def takesValue (o : Opt σ) : Bool :=
  match o.effect with
  | .take _ => true
  | _ => false

/-- A name of one letter. -/
def isShort (name : String) : Bool :=
  match name.toList with
  | '-' :: '-' :: _ => false
  | _ => true

/-- An option takes no value, and is given one. -/
def refuseValue {α : Type} (g : Grammar σ) (o : Opt σ) (given : List Char) : Except Ending α :=
  g.refuse s!"argument {o.label}: ignored explicit argument {Text.quoted (String.ofList given)}"

/-- Opens a word that carries a value.  The letters after a one-letter option that takes no value
are one-letter options themselves.  The last option of the word comes with its value. -/
def openWord (g : Grammar σ) (o : Opt σ) (short : Bool) :
    List Char → Except Ending (List (Opt σ) × Opt σ × Option String)
  | [] => if takesValue o then .ok ([], o, some "") else g.refuseValue o []
  | c :: rest =>
    if takesValue o then .ok ([], o, some (String.ofList (c :: rest)))
    else if !short then g.refuseValue o (c :: rest)
    else
      match g.find? (String.ofList ['-', c]) with
      | none => g.refuseValue o (c :: rest)
      | some next =>
        if rest.isEmpty then .ok ([o], next, none)
        else (openWord g next true rest).map fun (os, last, given) => (o :: os, last, given)

/-- The options of a word, the last one with its value. -/
def unfold (g : Grammar σ) (m : Match σ) : Except Ending (List (Opt σ) × Opt σ × Option String) :=
  match m.given with
  | none => .ok ([], m.option, none)
  | some cs => g.openWord m.option (isShort m.name) cs

/-- What an option does. -/
def act (o : Opt σ) (v : Value) (x : σ) : Except Ending σ :=
  match o.effect with
  | .print text => .error (.printed text)
  | .mark f => .ok (f x)
  | .take f => .ok (f v x)

/-- What several options do, and at last one with a value. -/
def actAll (os : List (Opt σ)) (last : Opt σ) (v : Value) (x : σ) : Except Ending σ :=
  match os with
  | [] => act last v x
  | o :: rest =>
    match act o .absent x with
    | .ok y => actAll rest last v y
    | .error e => .error e

/-! ### All words -/

/-- What words choose: the choices, the words of a command, and what is left over. -/
structure Parsed (σ : Type) where
  choices : σ
  command : List String
  left : List String

/-- A command starts here. -/
def startsCommand : List (String × Word σ) → Bool
  | (_, .plain) :: _ => true
  | (_, .dashes) :: rest => !rest.isEmpty
  | _ => false

/-- What the options of a word do.  The value of the last one may be the word that follows; the
flag says whether it is. -/
def takeWord (g : Grammar σ) (m : Match σ) (following : Option (String × Word σ)) (x : σ) :
    Except Ending (σ × Bool) :=
  match g.unfold m with
  | .error e => .error e
  | .ok (os, last, given) =>
    if takesValue last then
      match given, following with
      | some s, _ => (actAll os last (.ofText s) x).map fun y => (y, false)
      | none, some (s, .plain) => (actAll os last (.text s) x).map fun y => (y, true)
      | none, _ => g.refuse s!"argument {last.label}: expected one argument"
    else (actAll os last .absent x).map fun y => (y, false)

/-- Goes through the words, of which the first one is passed over if it is `taken`; `left` are
those left over so far. -/
def parseSorted (g : Grammar σ) (commands : Bool) :
    (taken : Bool) → List (String × Word σ) → σ → List String → Except Ending (Parsed σ)
  | _, [], x, left => .ok ⟨x, [], left⟩
  | true, _ :: rest, x, left => parseSorted g commands false rest x left
  | false, (word, .unknown) :: rest, x, left =>
    parseSorted g commands false rest x (left ++ [word])
  | false, (_, .option m) :: rest, x, left =>
    match g.takeWord m rest.head? x with
    | .ok (y, taken) => parseSorted g commands taken rest y left
    | .error e => .error e
  | false, (word, w) :: rest, x, left =>
    if commands && startsCommand ((word, w) :: rest) then
      .ok ⟨x, word :: rest.map (·.1), left⟩
    else parseSorted g commands false rest x (left ++ [word])

/-- What words choose, starting from the choices `x`. -/
def parse (g : Grammar σ) (commands : Bool) (words : List String) (x : σ) :
    Except Ending (Parsed σ) :=
  match g.sort words with
  | .ok sorted => g.parseSorted commands false sorted x []
  | .error e => .error e

end Grammar

end ReleaseFetch.CommandLine
