/-
**The document of a configuration file.**

Every node gets its value by its tag.  Collections are filled from the outside inwards, one level
after the other: a collection is there before its parts are, which is how it can be a part of
itself, and where a text has several faults, the one in the outermost collection counts, and of
those the first.

Main definitions:

* `ReleaseFetch.Yaml.Part`, `ReleaseFetch.Yaml.Content` — the parts of collections;
* `ReleaseFetch.Yaml.Build` — how far the values of a graph are known;
* `ReleaseFetch.Yaml.Document`, `ReleaseFetch.Yaml.Document.ofText` — the collections of a text;
* `ReleaseFetch.Yaml.Document.values` — parts spread out to values.
-/

import ReleaseFetch.Yaml.Leaf
import ReleaseFetch.Yaml.Merge

set_option autoImplicit false

namespace ReleaseFetch.Yaml

open Text

/-! ### Collections -/

/-- A part of a collection: a value without parts, or a collection by the number of its node. -/
inductive Part where
  | leaf (v : Value)
  | collection (n : Nat)

/-- What a collection holds. -/
inductive Content where
  | list (items : List Part)
  | pairs (items : List (Part × Part))
  | mapping (entries : List (Value × Part))
  | set (members : List Value)

/-- A key with the number of its node. -/
structure Key where
  node : Nat
  value : Value
  isNan : Bool

namespace Key

/-- Two keys are the same.  A value that is no number, written by digits, is the same as no other
one. -/
def isSame (a b : Key) : Bool :=
  a.node == b.node || (a.value.isSameKey b.value && !a.isNan && !b.isNan)

/-- Adds an entry: a key that is there keeps its place and gets the new part. -/
def insert (k : Key) (p : Part) : List (Key × Part) → List (Key × Part)
  | [] => [(k, p)]
  | (l, q) :: rest => if l.isSame k then (l, p) :: rest else (l, q) :: insert k p rest

end Key

/-! ### Building -/

/-- How far the values of a graph are known.  Collections that are not filled yet wait, those of
the level at hand in order and those of the next one last first. -/
structure Build where
  graph : Graph
  parts : Array (Option Part)
  contents : Array (Option Content)
  level : List Nat
  next : List Nat

/-- A step of building. -/
abbrev Building (α : Type) := StateT Build (Except Fault) α

namespace Build

/-- What is said of a time that is read from a mapping. -/
def timeOfMapping : Fault := .value .type "expected string or bytes-like object, got 'list'"

/-- The text that counts for a node under a tag for scalars: its own, or that of the entry whose
key is an equals sign. -/
def scalarText (g : Graph) : (fuel : Nat) → (n : Nat) → Except Fault (List Glyph)
  | 0, _ => .error .tooDeep
  | fuel + 1, n =>
    match g.node n with
    | .scalar _ gs => .ok gs
    | .mapping _ entries =>
      match entries.find? fun e => g.tagAt e.1 == .value with
      | some (_, v) => scalarText g fuel v
      | none => .error .malformed
    | .sequence .. => .error .malformed

/-- The value of a node under a tag for scalars. -/
def leafOf (g : Graph) (n : Nat) : Except Fault Value := do
  let gs ← scalarText g (g.size + 1) n
  match g.node n with
  | .scalar .. => ofScalar (g.tagAt n) gs
  | _ => if g.tagAt n == .timestamp then .error timeOfMapping else ofScalar (g.tagAt n) gs

/-- A fault is thrown. -/
def give {α : Type} : Except Fault α → Building α
  | .ok a => pure a
  | .error f => throw f

/-- The part of a node; a collection is noted to be filled. -/
def part (n : Nat) : Building Part := do
  let b ← get
  match (b.parts[n]?).join with
  | some p => return p
  | none =>
    let tag := b.graph.tagAt n
    if tag.isForScalars then
      let p := Part.leaf (← give (leafOf b.graph n))
      set { b with parts := b.parts.setIfInBounds n (some p) }
      return p
    else if tag.isForCollections then
      let p := Part.collection n
      set { b with parts := b.parts.setIfInBounds n (some p), next := n :: b.next }
      return p
    else throw .malformed

/-- The parts of nodes, in order. -/
def allParts : List Nat → Building (List Part)
  | [] => return []
  | n :: rest => do
    let p ← part n
    return p :: (← allParts rest)

/-- The parts of mappings of one entry each, in order. -/
def pairParts : List Nat → Building (List (Part × Part))
  | [] => return []
  | n :: rest => do
    match (← get).graph.node n with
    | .mapping _ [(k, v)] =>
      let first ← part k
      let second ← part v
      return (first, second) :: (← pairParts rest)
    | _ => throw .malformed

/-- The key of a node, which cannot be a collection. -/
def keyOf (n : Nat) : Building Key := do
  match ← part n with
  | .leaf v =>
    let isNan ← match (← get).graph.node n with
      | .scalar .float gs => pure (isNanByDigits gs)
      | _ => pure false
    return ⟨n, v, isNan⟩
  | .collection _ => throw .malformed

/-- The keys and the parts of entries; `found` are those so far. -/
def entryParts (found : List (Key × Part)) : List (Nat × Nat) → Building (List (Key × Part))
  | [] => return found
  | (k, v) :: rest => do
    let key ← keyOf k
    let p ← part v
    entryParts (key.insert p found) rest

/-- The entries of a mapping, its merges carried out. -/
def mappingParts (n : Nat) : Building (List (Key × Part)) := do
  match (← get).graph.node n with
  | .mapping .. =>
    let g ← give ((← get).graph.merge n)
    modify fun b => { b with graph := g }
    entryParts [] (g.entriesAt n)
  | _ => throw .malformed

/-- The items of a sequence. -/
def itemsOf (n : Nat) : Building (List Nat) := do
  match (← get).graph.node n with
  | .sequence _ items => return items
  | _ => throw .malformed

/-- What the collection of a node holds. -/
def contentOf (n : Nat) : Building Content := do
  match (← get).graph.tagAt n with
  | .seq => return .list (← allParts (← itemsOf n))
  | .omap | .pairs => return .pairs (← pairParts (← itemsOf n))
  | .map => return .mapping ((← mappingParts n).map fun (k, p) => (k.value, p))
  | .set => return .set ((← mappingParts n).map (·.1.value))
  | _ => throw .malformed

/-- Fills the collections that wait. -/
def fillAll : (fuel : Nat) → Building Unit
  | 0 => pure ()
  | fuel + 1 => do
    let b ← get
    match b.level, b.next with
    | n :: level, _ =>
      set { b with level := level }
      let c ← contentOf n
      modify fun b => { b with contents := b.contents.setIfInBounds n (some c) }
      fillAll fuel
    | [], [] => pure ()
    | [], next =>
      set { b with level := next.reverse, next := [] }
      fillAll fuel

end Build

/-! ### Documents -/

/-- The collections of a text by their numbers, and the outermost part. -/
structure Document where
  contents : Array (Option Content)
  root : Part

namespace Document

/-- The document of a graph whose outermost node is `n`. -/
def ofGraph (n : Nat) (g : Graph) : Except Fault Document := do
  let empty := Array.replicate g.size none
  let build : Building Part := do
    let root ← Build.part n
    Build.fillAll (2 * g.size + 2)
    return root
  let (root, b) ← build.run ⟨g, empty, Array.replicate g.size none, [], []⟩
  return ⟨b.contents, root⟩

/-- The document of a text, which may be cut off; `none` for an empty one. -/
def ofText (cs : List Char) (cut : Option Fault) : Except Fault (Option Document) := do
  match ← Graph.ofText cs cut with
  | none => return none
  | some (n, g) => return some (← ofGraph n g)

/-- What a collection holds. -/
def content? (d : Document) (n : Nat) : Option Content := (d.contents[n]?).join

/-- The entries of a part that is a mapping. -/
def entries? (d : Document) : Part → Option (List (Value × Part))
  | .leaf _ => none
  | .collection n =>
    match d.content? n with
    | some (.mapping entries) => some entries
    | _ => none

/-- The part counts as nothing: it is absent, false, zero or empty. -/
def isNothing (d : Document) : Part → Bool
  | .leaf v => v.isNothing
  | .collection n =>
    match d.content? n with
    | some (.list items) => items.isEmpty
    | some (.pairs items) => items.isEmpty
    | some (.mapping entries) => entries.isEmpty
    | some (.set members) => members.isEmpty
    | none => true

/-! ### Spreading out -/

/-- Values of collections that are known, by their numbers. -/
abbrev Spread (α : Type) := StateM (Array (Option Value)) α

/-- A value, and whether it does without the collections around it. -/
abbrev Closed := Value × Bool

/-- The collection is a mapping. -/
def isMapping (d : Document) (n : Nat) : Bool :=
  match d.content? n with
  | some (.mapping _) => true
  | _ => false

mutual

/-- The value of a part inside the collections `around`.  A value that does without them is kept
and used again. -/
def valueOf (d : Document) : (fuel : Nat) → (around : List Nat) → Part → Spread Closed
  | _, _, .leaf v => return (v, true)
  | 0, _, .collection n => return (.enclosing (d.isMapping n), false)
  | fuel + 1, around, .collection n => do
    match ((← get)[n]?).join with
    | some v => return (v, true)
    | none =>
      if around.contains n then return (.enclosing (d.isMapping n), false)
      else
        let (v, closed) ← valueOfContent d fuel (n :: around) (d.content? n)
        if closed then modify fun known => known.setIfInBounds n (some v)
        return (v, closed)

/-- The value of a collection. -/
def valueOfContent (d : Document) : (fuel : Nat) → (around : List Nat) → Option Content →
    Spread Closed
  | 0, _, _ => return (.null, false)
  | _ + 1, _, none => return (.null, true)
  | fuel + 1, around, some content => do
    match content with
    | .list items =>
      let (vs, closed) ← valuesOf d fuel around items
      return (.list vs, closed)
    | .pairs items =>
      let (firsts, closed) ← valuesOf d fuel around (items.map (·.1))
      let (seconds, closed') ← valuesOf d fuel around (items.map (·.2))
      return (.list ((firsts.zip seconds).map fun (a, b) => .pair a b), closed && closed')
    | .mapping entries =>
      let (vs, closed) ← valuesOf d fuel around (entries.map (·.2))
      return (.mapping ((entries.map (·.1)).zip vs), closed)
    | .set members => return (.set members, true)

/-- The values of parts, and whether they all do without the collections around them. -/
def valuesOf (d : Document) : (fuel : Nat) → (around : List Nat) → List Part →
    Spread (List Value × Bool)
  | _, _, [] => return ([], true)
  | 0, _, _ :: _ => return ([], false)
  | fuel + 1, around, p :: rest => do
    let (v, closed) ← valueOf d fuel around p
    let (vs, closed') ← valuesOf d fuel around rest
    return (v :: vs, closed && closed')

end

/-- The number of parts in the collections, and of the collections. -/
def weight (d : Document) : Nat :=
  d.contents.foldl (fun total c =>
    match c with
    | some (.list items) => total + items.length + 3
    | some (.pairs items) => total + items.length + 3
    | some (.mapping entries) => total + entries.length + 3
    | _ => total + 3) 0

/-- The values of parts, each spread out on its own. -/
def values (d : Document) (ps : List Part) : List Value :=
  let all : Spread (List Value) := ps.mapM fun p => do
    return (← valueOf d (d.weight + 1) [] p).1
  (all.run (Array.replicate d.contents.size none)).1

end Document

end ReleaseFetch.Yaml
