/-
**Sets of characters given by ranges of code points.**

The character classes of the library are tables of closed ranges.  This module says what it means
to be in such a table, so that every class is one list and one membership test.

Main definitions:

* `ReleaseFetch.Text.Ranges` — a list of closed ranges, lower end first;
* `ReleaseFetch.Text.Ranges.holds` — the membership test.
-/

set_option autoImplicit false

namespace ReleaseFetch.Text

/-- Closed ranges of code points. -/
abbrev Ranges := List (Nat × Nat)

/-- Some range of the table holds the character. -/
def Ranges.holds (table : Ranges) (c : Char) : Bool :=
  table.any fun (low, high) => low ≤ c.toNat && c.toNat ≤ high

@[simp] theorem Ranges.holds_nil (c : Char) : Ranges.holds [] c = false := rfl

theorem Ranges.holds_iff (table : Ranges) (c : Char) :
    table.holds c = true ↔ ∃ r ∈ table, r.1 ≤ c.toNat ∧ c.toNat ≤ r.2 := by
  simp [Ranges.holds]

end ReleaseFetch.Text
