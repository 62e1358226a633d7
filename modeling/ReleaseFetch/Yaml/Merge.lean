/-
**Mappings that take in others.**

An entry of a mapping whose key is the merge mark brings in the entries of another mapping, or of
several in a sequence.  They stand before the entries of the mapping itself, so that these win, and
what comes first in a sequence counts most, so it is put last.  A mapping may even name itself: the
entry is taken out before it is followed, so there is nothing to bring in a second time.

Main definitions:

* `ReleaseFetch.Yaml.Merge.takeMark` — the first entry with the merge mark, and the others;
* `ReleaseFetch.Yaml.Merge.carryOut` — a mapping with what it merges in, by fuel;
* `ReleaseFetch.Yaml.Graph.merge` — the graph after the merges of one mapping.
-/

import ReleaseFetch.Yaml.Node

set_option autoImplicit false

namespace ReleaseFetch.Yaml.Merge

/-- A step of merging. -/
abbrev Merging (α : Type) := StateT Graph (Except Fault) α

/-- The value of the first entry with the merge mark, and the entries without it. -/
def takeMark (g : Graph) : List (Nat × Nat) → Option (Nat × List (Nat × Nat))
  | [] => none
  | (k, v) :: rest =>
    if g.tagAt k == .merge then some (v, rest)
    else (takeMark g rest).map fun (source, others) => (source, (k, v) :: others)

/-- A key that is an equals sign counts as text. -/
def asText (g : Graph) (k : Nat) : Graph :=
  if g.tagAt k == .value then g.put k ((g.node k).withTag .str) else g

/-- Closes the merges of a mapping: what was gathered is put in front. -/
def close (n : Nat) (gathered : List (Nat × Nat)) : Merging Unit :=
  modify fun g =>
    let own := g.entriesAt n
    (own.foldl (fun acc e => asText acc e.1) g).putEntries n (gathered ++ own)

mutual

/-- Carries out the merges of a mapping that are left. -/
def carryOut : (fuel : Nat) → (n : Nat) → (gathered : List (Nat × Nat)) → Merging Unit
  | 0, _, _ => throw .malformed
  | fuel + 1, n, gathered => do
    let g ← get
    match takeMark g (g.entriesAt n) with
    | none => close n gathered
    | some (source, others) =>
      set (g.putEntries n others)
      let more ← entriesOf fuel source
      carryOut fuel n (gathered ++ more)

/-- The entries that a source brings in. -/
def entriesOf : (fuel : Nat) → (source : Nat) → Merging (List (Nat × Nat))
  | 0, _ => throw .malformed
  | fuel + 1, source => do
    match (← get).node source with
    | .mapping .. => entriesOfMapping fuel source
    | .sequence _ items => entriesOfAll fuel items
    | .scalar .. => throw .malformed

/-- The entries of a mapping, its own merges carried out. -/
def entriesOfMapping : (fuel : Nat) → (n : Nat) → Merging (List (Nat × Nat))
  | 0, _ => throw .malformed
  | fuel + 1, n => do
    carryOut fuel n []
    return (← get).entriesAt n

/-- The entries of several mappings, those of the last one first. -/
def entriesOfAll : (fuel : Nat) → List Nat → Merging (List (Nat × Nat))
  | 0, _ => throw .malformed
  | _ + 1, [] => return []
  | fuel + 1, n :: rest => do
    match (← get).node n with
    | .mapping .. =>
      let first ← entriesOfMapping fuel n
      return (← entriesOfAll fuel rest) ++ first
    | _ => throw .malformed

end

end Merge

/-- The graph after the merges of a mapping.  Every step takes an entry out of the graph or goes on
in a list of it, which bounds their number. -/
def Graph.merge (g : Graph) (n : Nat) : Except Fault Graph :=
  ((Merge.carryOut (Nat.pow (g.weight + 4) 2) n []).run g).map (·.2)

end ReleaseFetch.Yaml
