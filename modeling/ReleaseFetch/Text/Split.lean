/-
**Cutting a text at a character.**

Host names, ports, credentials, words of a list and path names are all found by cutting a text at
the first or the last occurrence of one character.

Main definitions:

* `ReleaseFetch.Text.cutFirst?`, `ReleaseFetch.Text.cutLast?` — what stands before and after the
  first, or the last, occurrence;
* `ReleaseFetch.Text.pieces` — all that stands between the occurrences;
* `ReleaseFetch.Text.joinWith` — the pieces with a separator between them.

Main results:

* `ReleaseFetch.Text.cutFirst?_eq_some_iff` — the part before holds no separator, and nothing is
  lost.
-/

set_option autoImplicit false

namespace ReleaseFetch.Text

/-! ### One cut -/

/-- The text before the first `sep` and the text after it; `none` without a `sep`. -/
def cutFirst? (sep : Char) : List Char → Option (List Char × List Char)
  | [] => none
  | c :: rest =>
    if c = sep then some ([], rest)
    else (cutFirst? sep rest).map fun (a, b) => (c :: a, b)

/-- The text before the last `sep` and the text after it; `none` without a `sep`. -/
def cutLast? (sep : Char) (cs : List Char) : Option (List Char × List Char) :=
  (cutFirst? sep cs.reverse).map fun (a, b) => (b.reverse, a.reverse)

theorem cutFirst?_eq_some_iff {sep : Char} {cs a b : List Char} :
    cutFirst? sep cs = some (a, b) ↔ cs = a ++ sep :: b ∧ sep ∉ a := by
  induction cs generalizing a with
  | nil => simp [cutFirst?]
  | cons c rest ih =>
    by_cases h : c = sep
    · subst h
      cases a with
      | nil => simp [cutFirst?, eq_comm]
      | cons d a => simp [cutFirst?]; grind
    · cases a with
      | nil => simp [cutFirst?, h]
      | cons d a => simp [cutFirst?, h, ih]; grind

theorem cutFirst?_eq_none_iff {sep : Char} {cs : List Char} :
    cutFirst? sep cs = none ↔ sep ∉ cs := by
  induction cs with
  | nil => simp [cutFirst?]
  | cons c rest ih => by_cases h : c = sep <;> simp [cutFirst?, h, ih]; grind

theorem cutLast?_eq_none_iff {sep : Char} {cs : List Char} :
    cutLast? sep cs = none ↔ sep ∉ cs := by
  simp [cutLast?, cutFirst?_eq_none_iff]

theorem cutLast?_eq_some_iff {sep : Char} {cs a b : List Char} :
    cutLast? sep cs = some (a, b) ↔ cs = a ++ sep :: b ∧ sep ∉ b := by
  constructor
  · intro h
    obtain ⟨⟨x, y⟩, hxy, he⟩ := Option.map_eq_some_iff.1 h
    obtain ⟨h₁, h₂⟩ := cutFirst?_eq_some_iff.1 hxy
    obtain ⟨rfl, rfl⟩ : y.reverse = a ∧ x.reverse = b := by simpa using he
    have := congrArg List.reverse h₁
    simp_all
  · rintro ⟨rfl, h⟩
    have : cutFirst? sep (a ++ sep :: b).reverse = some (b.reverse, a.reverse) :=
      cutFirst?_eq_some_iff.2 (by simp [h])
    rw [cutLast?, this]
    simp

/-- What stands before the first `sep`, or all of the text. -/
def beforeFirst (sep : Char) (cs : List Char) : List Char := cs.takeWhile (· != sep)

/-- What stands after the last `sep`, or all of the text. -/
def afterLast (sep : Char) (cs : List Char) : List Char :=
  match cutLast? sep cs with
  | some (_, b) => b
  | none => cs

/-- The first text stands somewhere in the second. -/
def occurs (part : List Char) : List Char → Bool
  | [] => part.isEmpty
  | c :: rest => part.isPrefixOf (c :: rest) || occurs part rest

/-! ### All cuts -/

/-- What stands between the occurrences of `sep`; there is one piece more than occurrences. -/
def pieces {α : Type} [DecidableEq α] (sep : α) : List α → List (List α)
  | [] => [[]]
  | c :: rest =>
    if c = sep then [] :: pieces sep rest
    else match pieces sep rest with
      | [] => [[c]]
      | p :: ps => (c :: p) :: ps

/-- The texts with a separator between them. -/
def joinWith {α : Type} (sep : List α) : List (List α) → List α
  | [] => []
  | [p] => p
  | p :: q :: ps => p ++ sep ++ joinWith sep (q :: ps)

theorem pieces_ne_nil {α : Type} [DecidableEq α] (sep : α) (cs : List α) :
    pieces sep cs ≠ [] := by
  cases cs with
  | nil => simp [pieces]
  | cons c rest =>
    by_cases h : c = sep
    · simp [pieces, h]
    · simp only [pieces, h, if_false]
      split <;> simp

/-- Texts with a separator between them, as a text. -/
def join (sep : String) (parts : List String) : String :=
  String.ofList (joinWith sep.toList (parts.map String.toList))

end ReleaseFetch.Text
