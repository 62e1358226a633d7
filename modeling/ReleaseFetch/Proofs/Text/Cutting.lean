/-
**Cuts that meet other steps.**

What a cut finds is known from where the separators are.  Cuts at two characters can be made in
either order, and characters that are no separators can be dropped before a cut or after it.

Main results:

* `ReleaseFetch.Text.beforeFirst_append_of_mem`, `ReleaseFetch.Text.beforeFirst_append_of_notMem` —
  the first cut of two texts;
* `ReleaseFetch.Text.exists_afterLast` — the last cut of a text;
* `ReleaseFetch.Text.beforeFirst_filter`, `ReleaseFetch.Text.afterLast_filter` — cuts of a text
  without some characters;
* `ReleaseFetch.Text.occurs_iff` — what occurs in a text.
-/

import Mathlib.Data.List.TakeWhile
import ReleaseFetch.Text.Split

set_option autoImplicit false

namespace ReleaseFetch.Text

variable {sep : Char} {cs : List Char} {p q : Char → Bool}

/-! ### The first cut -/

/-- Characters that do not stop a text can be dropped before it is cut. -/
theorem takeWhile_filter_of_pass (h : ∀ c, p c = false → q c = true) :
    (cs.filter p).takeWhile q = (cs.takeWhile q).filter p := by
  rw [List.takeWhile_filter]
  congr 2
  funext c
  cases hp : p c with
  | false => simp [h c hp]
  | true => simp

theorem beforeFirst_filter (hsep : p sep = true) :
    beforeFirst sep (cs.filter p) = (beforeFirst sep cs).filter p := by
  refine takeWhile_filter_of_pass fun c hc => bne_iff_ne.2 ?_
  rintro rfl
  simp [hsep] at hc

theorem beforeFirst_cons {c : Char} (hc : c ≠ sep) (rest : List Char) :
    beforeFirst sep (c :: rest) = c :: beforeFirst sep rest := by
  simp [beforeFirst, hc]

/-- A separator cuts the text, whatever follows. -/
theorem beforeFirst_append_of_mem {front : List Char} (h : sep ∈ front) (back : List Char) :
    beforeFirst sep (front ++ back) = beforeFirst sep front := by
  induction front with
  | nil => cases h
  | cons c rest ih =>
      by_cases hc : c = sep
      · simp [beforeFirst, hc]
      · have hrest : sep ∈ rest := (List.mem_cons.1 h).resolve_left (Ne.symm hc)
        rw [List.cons_append, beforeFirst_cons hc, beforeFirst_cons hc, ih hrest]

theorem beforeFirst_append_of_notMem {front : List Char} (h : sep ∉ front)
    (back : List Char) : beforeFirst sep (front ++ back) = front ++ beforeFirst sep back :=
  List.takeWhile_append_of_pos fun _ hc => bne_iff_ne.2 fun heq => h (heq ▸ hc)

theorem beforeFirst_of_notMem (h : sep ∉ cs) : beforeFirst sep cs = cs := by
  have happend := beforeFirst_append_of_notMem h []
  rwa [List.append_nil, show beforeFirst sep [] = [] from rfl, List.append_nil] at happend

/-- A character that no separator comes before is not cut off. -/
theorem mem_beforeFirst {front : List Char} {c : Char} (h : sep ∉ front) (hc : c ≠ sep)
    (back : List Char) : c ∈ beforeFirst sep (front ++ c :: back) := by
  rw [beforeFirst_append_of_notMem h, beforeFirst_cons hc]
  simp

/-- Two cuts can be made in either order. -/
theorem beforeFirst_comm (sep sep' : Char) (cs : List Char) :
    beforeFirst sep (beforeFirst sep' cs) = beforeFirst sep' (beforeFirst sep cs) := by
  unfold beforeFirst
  rw [List.takeWhile_takeWhile, List.takeWhile_takeWhile]
  congr 1
  funext c
  rw [Bool.eq_iff_iff]
  simp [and_comm]

/-! ### The last cut -/

theorem afterLast_append (front : List Char) {back : List Char} (h : sep ∉ back) :
    afterLast sep (front ++ sep :: back) = back := by
  rw [afterLast, cutLast?_eq_some_iff.2 ⟨rfl, h⟩]

theorem afterLast_of_notMem (h : sep ∉ cs) : afterLast sep cs = cs := by
  rw [afterLast, cutLast?_eq_none_iff.2 h]

/-- A text with a separator is what stands before the last one, and what stands after it. -/
theorem exists_afterLast (h : sep ∈ cs) :
    ∃ front, cs = front ++ sep :: afterLast sep cs ∧ sep ∉ afterLast sep cs := by
  cases hcut : cutLast? sep cs with
  | none => exact absurd h (cutLast?_eq_none_iff.1 hcut)
  | some x =>
      obtain ⟨front, back⟩ := x
      obtain ⟨heq, hback⟩ := cutLast?_eq_some_iff.1 hcut
      have hlast : afterLast sep cs = back := by rw [afterLast, hcut]
      exact ⟨front, hlast ▸ heq, hlast ▸ hback⟩

theorem notMem_afterLast (sep : Char) (cs : List Char) : sep ∉ afterLast sep cs := by
  by_cases h : sep ∈ cs
  · obtain ⟨front, -, hback⟩ := exists_afterLast h
    exact hback
  · rwa [afterLast_of_notMem h]

/-- What stands after the last separator is the same without other characters. -/
theorem afterLast_filter (hsep : p sep = true) :
    afterLast sep (cs.filter p) = (afterLast sep cs).filter p := by
  by_cases h : sep ∈ cs
  · obtain ⟨front, heq, hback⟩ := exists_afterLast h
    have hfilter : cs.filter p = front.filter p ++ sep :: (afterLast sep cs).filter p := by
      have h := congrArg (List.filter p) heq
      rwa [List.filter_append, List.filter_cons_of_pos hsep] at h
    rw [hfilter, afterLast_append _ fun hmem => hback (List.mem_filter.1 hmem).1]
  · rw [afterLast_of_notMem h, afterLast_of_notMem fun hmem => h (List.mem_filter.1 hmem).1]

/-! ### What stands in a text -/

theorem occurs_iff {part : List Char} : occurs part cs = true ↔ part <:+: cs := by
  induction cs with
  | nil => simp [occurs]
  | cons c rest ih =>
      rw [occurs, Bool.or_eq_true, List.isPrefixOf_iff_prefix, ih, List.infix_cons_iff]

end ReleaseFetch.Text
