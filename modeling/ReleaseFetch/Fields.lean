/-
**Named fields in order.**

Objects of a data format, request headers and environment variables are all lists of names with
values.  A name that is set again keeps its first place and gets the last value.

Main definitions:

* `ReleaseFetch.Fields.set` — one field set.

Main results:

* `ReleaseFetch.Fields.lookup_set` — only the name that is set changes its value.
-/

set_option autoImplicit false

namespace ReleaseFetch.Fields

/-- Sets a field: in its place if it is there, at the end if not. -/
def set {α : Type} (name : String) (v : α) : List (String × α) → List (String × α)
  | [] => [(name, v)]
  | (n, w) :: rest => if n = name then (n, v) :: rest else (n, w) :: set name v rest

theorem lookup_set {α : Type} (name other : String) (v : α) (fields : List (String × α)) :
    (set name v fields).lookup other =
      if other = name then some v else fields.lookup other := by
  induction fields with
  | nil =>
    by_cases h : other = name
    · simp [set, h]
    · have hb : (other == name) = false := by simpa using h
      simp [set, List.lookup_cons, hb, h]
  | cons x rest ih =>
    obtain ⟨n, w⟩ := x
    by_cases hn : n = name
    · subst hn
      by_cases h : other = n
      · simp [set, h]
      · have hb : (other == n) = false := by simpa using h
        simp [set, List.lookup_cons, hb, h]
    · by_cases h : other = n
      · have hne : ¬other = name := fun e => hn (h ▸ e)
        subst h
        simp [set, hn]
      · have hb : (other == n) = false := by simpa using h
        simp [set, hn, List.lookup_cons, hb, ih]

/-- Sets several fields, one after the other. -/
def setAll {α : Type} (more fields : List (String × α)) : List (String × α) :=
  more.foldl (fun acc x => set x.1 x.2 acc) fields

/-- The fields in which every name comes once. -/
def ofList {α : Type} (fields : List (String × α)) : List (String × α) := setAll fields []

end ReleaseFetch.Fields
