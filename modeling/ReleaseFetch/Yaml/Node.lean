/-
**The nodes of a configuration file.**

Tokens are put together to nodes.  Every node has a tag and a number, and a collection holds the
numbers of its parts: a node with a name can be used again behind the place where it starts, and
is then the same node, even inside of itself.  A text holds at most one document.

Main definitions:

* `ReleaseFetch.Yaml.Node`, `ReleaseFetch.Yaml.Graph` — the nodes by their numbers;
* `ReleaseFetch.Yaml.Reader` — the tokens that are left, with the names and handles known;
* `ReleaseFetch.Yaml.Graph.ofText` — the nodes of a text and the number of the outermost one;
  `none` for an empty text.

Main results:

* `ReleaseFetch.Yaml.Graph.node_put` — only the node that is put changes.
-/

import ReleaseFetch.Fields
import ReleaseFetch.Yaml.Tag
import ReleaseFetch.Yaml.Token

set_option autoImplicit false

namespace ReleaseFetch.Yaml

/-- A node; the parts of a collection are given by their numbers. -/
inductive Node where
  | scalar (tag : Tag) (text : List Text.Glyph)
  | sequence (tag : Tag) (items : List Nat)
  | mapping (tag : Tag) (entries : List (Nat × Nat))

/-- The tag of a node. -/
def Node.tag : Node → Tag
  | .scalar t _ => t
  | .sequence t _ => t
  | .mapping t _ => t

/-- The node with another tag. -/
def Node.withTag (t : Tag) : Node → Node
  | .scalar _ s => .scalar t s
  | .sequence _ items => .sequence t items
  | .mapping _ entries => .mapping t entries

/-- A node for which nothing is written. -/
def Node.empty : Node := .scalar .null []

/-! ### Graphs -/

/-- Nodes by their numbers. -/
abbrev Graph := Array Node

namespace Graph

/-- The node of a number. -/
def node (g : Graph) (n : Nat) : Node := g[n]?.getD .empty

/-- The tag of a node. -/
def tagAt (g : Graph) (n : Nat) : Tag := (g.node n).tag

/-- The graph with another node under a number. -/
def put (g : Graph) (n : Nat) (x : Node) : Graph := g.setIfInBounds n x

theorem node_put (g : Graph) (n m : Nat) (x : Node) (hn : n < g.size) :
    (g.put n x).node m = if m = n then x else g.node m := by
  unfold node put
  by_cases h : m = n
  · subst h
    simp [hn]
  · rw [Array.getElem?_setIfInBounds_ne (Ne.symm h), if_neg h]

/-- The entries of a mapping. -/
def entriesAt (g : Graph) (n : Nat) : List (Nat × Nat) :=
  match g.node n with
  | .mapping _ entries => entries
  | _ => []

/-- The graph with other entries in a mapping. -/
def putEntries (g : Graph) (n : Nat) (entries : List (Nat × Nat)) : Graph :=
  match g.node n with
  | .mapping tag _ => g.put n (.mapping tag entries)
  | _ => g

/-- The number of nodes, items and entries. -/
def weight (g : Graph) : Nat :=
  g.foldl (fun total x =>
    match x with
    | .scalar .. => total + 1
    | .sequence _ items => total + items.length + 1
    | .mapping _ entries => total + entries.length + 1) 0

end Graph

/-! ### Reading tokens -/

/-- What is left to put together, and what has been; `depth` collections are open. -/
structure Reader where
  tokens : Tokens
  depth : Nat
  graph : Graph
  anchors : List (String × Nat)
  handles : List (String × String)

/-- A step of putting tokens together. -/
abbrev Reading (α : Type) := StateT Reader (Except Fault) α

namespace Reading

/-- The token at the front; `none` at the end of the text.  Behind the last token there may be a
fault. -/
def front? : Reading (Option Token) := do
  let r ← get
  match r.tokens.found.head?, r.tokens.fault with
  | some t, _ => return some t
  | none, some f => throw f
  | none, none => return none

/-- The token at the front is one of those that a test accepts. -/
def sees (p : Token → Bool) : Reading Bool := do
  return ((← front?).map p).getD false

/-- Drops the token at the front. -/
def drop : Reading Unit :=
  modify fun r => { r with tokens := { r.tokens with found := r.tokens.found.tail } }

/-- Adds a node. -/
def add (x : Node) : Reading Nat :=
  modifyGet fun r => (r.graph.size, { r with graph := r.graph.push x })

/-- Puts the parts into a collection. -/
def fill (n : Nat) (x : Node) : Reading Unit := modify fun r => { r with graph := r.graph.put n x }

/-- The tokens are not of the format. -/
def fault {α : Type} : Reading α := throw .malformed

/-- Drops a given token if it is at the front. -/
def accept (t : Token) : Reading Bool := do
  if ← sees (· == t) then
    drop
    return true
  return false

/-- Drops a given token, which has to be at the front. -/
def expect (t : Token) : Reading Unit := do
  if !(← accept t) then fault

/-- The number of collections that may be inside of each other. -/
def depthLimit : Nat := 488

/-- Reads the parts of a collection, which may not be inside of too many others. -/
def inside {α : Type} (parts : Reading α) : Reading α := do
  if (← get).depth ≥ depthLimit then throw .tooDeep
  modify fun r => { r with depth := r.depth + 1 }
  let found ← parts
  modify fun r => { r with depth := r.depth - 1 }
  return found

/-! ### Properties of a node -/

/-- The anchor and the tag before a node, in either order. -/
structure Properties where
  anchor : Option String
  tag : Option (Option String × String)

/-- The anchor at the front. -/
def anchorHere : Reading (Option String) := do
  match ← front? with
  | some (.anchor name) =>
    drop
    return some name
  | _ => return none

/-- The tag at the front. -/
def tagHere : Reading (Option (Option String × String)) := do
  match ← front? with
  | some (.tag handle suffix) =>
    drop
    return some (handle, suffix)
  | _ => return none

/-- The properties of the node at the front. -/
def properties : Reading Properties := do
  match ← anchorHere with
  | some name => return ⟨some name, ← tagHere⟩
  | none =>
    let tag ← tagHere
    return ⟨← anchorHere, tag⟩

/-- The full name of a tag: its handle has to be known. -/
def fullTag : Option String × String → Reading String
  | (none, suffix) => return suffix
  | (some handle, suffix) => do
    match (← get).handles.lookup handle with
    | some expansion => return expansion ++ suffix
    | none => fault

/-- The tag of a collection. -/
def collectionTag (plain : Tag) (name : Option String) : Tag :=
  match name.filter (· != "!") with
  | some name => .ofText name
  | none => plain

/-- The tag of a scalar: its own, or by its form if it is plain or has the bare tag. -/
def scalarTag (name : Option String) (text : List Text.Glyph) (plain : Bool) : Tag :=
  match name with
  | some name => if name == "!" then .ofPlain text else .ofText name
  | none => if plain then .ofPlain text else .str

/-- Adds a node with its name, which may be given once only. -/
def start (anchor : Option String) (x : Node) : Reading Nat := do
  match anchor with
  | none => add x
  | some name =>
    if ((← get).anchors.lookup name).isSome then fault
    let n ← add x
    modify fun r => { r with anchors := (name, n) :: r.anchors }
    return n

/-- The node that was given a name. -/
def nodeNamed (name : String) : Reading Nat := do
  match (← get).anchors.lookup name with
  | some n => return n
  | none => fault

/-! ### Nodes -/

/-- Tokens that end an item of a sequence without brackets and without indentation. -/
def endsIndentless (t : Token) : Bool :=
  t == .blockEntry || t == .key || t == .value || t == .blockEnd

/-- Tokens that end an entry of an indented mapping. -/
def endsBlockPair (t : Token) : Bool := t == .key || t == .value || t == .blockEnd

/-- Tokens that end an item of an indented sequence. -/
def endsBlockItem (t : Token) : Bool := t == .blockEntry || t == .blockEnd

/-- Tokens that end a key between square brackets. -/
def endsSequenceKey (t : Token) : Bool :=
  t == .value || t == .flowEntry || t == .flowSequenceEnd

/-- Tokens that end a value between square brackets. -/
def endsSequenceValue (t : Token) : Bool := t == .flowEntry || t == .flowSequenceEnd

/-- Tokens that end a key between braces. -/
def endsMappingKey (t : Token) : Bool := t == .value || t == .flowEntry || t == .flowMappingEnd

/-- Tokens that end a value between braces. -/
def endsMappingValue (t : Token) : Bool := t == .flowEntry || t == .flowMappingEnd

/-- Where a node may stand: in an indented collection or between brackets. -/
inductive Place where
  | block
  | blockOrIndentless
  | flow
  deriving DecidableEq

/-- The node for which nothing but properties are written. -/
def missing (p : Properties) (tag : Option String) : Reading Nat :=
  if p.anchor.isSome || tag.isSome then start p.anchor (.scalar (scalarTag tag [] true) [])
  else fault

mutual

/-- The node at the front. -/
def node : (fuel : Nat) → Place → Reading Nat
  | 0, _ => fault
  | fuel + 1, place => do
    match ← front? with
    | some (.alias name) =>
      drop
      nodeNamed name
    | _ =>
      let p ← properties
      content fuel place p (← p.tag.mapM fullTag)

/-- The content of a node behind its properties. -/
def content : (fuel : Nat) → Place → Properties → Option String → Reading Nat
  | 0, _, _, _ => fault
  | fuel + 1, place, p, tag => do
    let sequence (items : Reading (List Nat)) : Reading Nat := do
      let t := collectionTag .seq tag
      let n ← start p.anchor (.sequence t [])
      fill n (.sequence t (← inside items))
      return n
    let mapping (entries : Reading (List (Nat × Nat))) : Reading Nat := do
      let t := collectionTag .map tag
      let n ← start p.anchor (.mapping t [])
      fill n (.mapping t (← inside entries))
      return n
    match ← front? with
    | some (.scalar text plain) =>
      drop
      start p.anchor (.scalar (scalarTag tag text plain) text)
    | some .flowSequenceStart =>
      drop
      sequence (flowItems fuel true)
    | some .flowMappingStart =>
      drop
      mapping (flowPairs fuel true)
    | some .blockEntry =>
      if place == .blockOrIndentless then sequence (indentlessItems fuel) else missing p tag
    | some .blockSequenceStart =>
      if place == .flow then missing p tag
      else
        drop
        sequence (blockItems fuel)
    | some .blockMappingStart =>
      if place == .flow then missing p tag
      else
        drop
        mapping (blockPairs fuel)
    | _ => missing p tag

/-- A node, or the empty one where a token of a class comes at once. -/
def nodeUnless : (fuel : Nat) → (Token → Bool) → Place → Reading Nat
  | 0, _, _ => fault
  | fuel + 1, stop, place => do
    if ← sees stop then add .empty else node fuel place

/-- The items of an indented sequence. -/
def blockItems : (fuel : Nat) → Reading (List Nat)
  | 0 => fault
  | fuel + 1 => do
    if ← accept .blockEntry then
      let n ← nodeUnless fuel endsBlockItem .block
      return n :: (← blockItems fuel)
    expect .blockEnd
    return []

/-- The items of a sequence at the indentation of the mapping around it. -/
def indentlessItems : (fuel : Nat) → Reading (List Nat)
  | 0 => fault
  | fuel + 1 => do
    if ← accept .blockEntry then
      let n ← nodeUnless fuel endsIndentless .block
      return n :: (← indentlessItems fuel)
    return []

/-- The entries of an indented mapping. -/
def blockPairs : (fuel : Nat) → Reading (List (Nat × Nat))
  | 0 => fault
  | fuel + 1 => do
    if ← accept .key then
      let k ← nodeUnless fuel endsBlockPair .blockOrIndentless
      let v ←
        if ← accept .value then nodeUnless fuel endsBlockPair .blockOrIndentless
        else add .empty
      return (k, v) :: (← blockPairs fuel)
    expect .blockEnd
    return []

/-- The items between square brackets. -/
def flowItems : (fuel : Nat) → (first : Bool) → Reading (List Nat)
  | 0, _ => fault
  | fuel + 1, first => do
    if ← accept .flowSequenceEnd then return []
    if !first then expect .flowEntry
    if ← accept .key then
      let n ← add (.mapping .map [])
      let entry ← inside do
        let k ← nodeUnless fuel endsSequenceKey .flow
        let v ←
          if ← accept .value then nodeUnless fuel endsSequenceValue .flow
          else add .empty
        return (k, v)
      fill n (.mapping .map [entry])
      return n :: (← flowItems fuel false)
    if ← accept .flowSequenceEnd then return []
    let n ← node fuel .flow
    return n :: (← flowItems fuel false)

/-- The entries between braces. -/
def flowPairs : (fuel : Nat) → (first : Bool) → Reading (List (Nat × Nat))
  | 0, _ => fault
  | fuel + 1, first => do
    if ← accept .flowMappingEnd then return []
    if !first then expect .flowEntry
    if ← accept .key then
      let k ← nodeUnless fuel endsMappingKey .flow
      let v ←
        if ← accept .value then nodeUnless fuel endsMappingValue .flow
        else add .empty
      return (k, v) :: (← flowPairs fuel false)
    if ← accept .flowMappingEnd then return []
    let k ← node fuel .flow
    return (k, ← add .empty) :: (← flowPairs fuel false)

end

/-! ### The document -/

/-- The handles that every document knows. -/
def commonHandles : List (String × String) := [("!", "!"), ("!!", Tag.family)]

/-- Reads directives; each may be given once only. -/
def directives : (fuel : Nat) → (versioned : Bool) → List (String × String) →
    Reading (List (String × String))
  | 0, _, handles => return handles
  | fuel + 1, versioned, handles => do
    match ← front? with
    | some (.versionDirective major) =>
      drop
      if versioned || major != 1 then fault
      directives fuel true handles
    | some (.tagDirective handle expansion) =>
      drop
      if (handles.lookup handle).isSome then fault
      directives fuel versioned (handles ++ [(handle, expansion)])
    | some .otherDirective =>
      drop
      directives fuel versioned handles
    | _ => return handles

/-- The token is a directive. -/
def isDirective : Token → Bool
  | .versionDirective _ | .tagDirective .. | .otherDirective => true
  | _ => false

/-- Drops the marks of the ends of documents. -/
def dropDocumentEnds : (fuel : Nat) → Reading Unit
  | 0 => pure ()
  | fuel + 1 => do
    if ← accept .documentEnd then dropDocumentEnds fuel

/-- No token is left. -/
def atEnd : Reading Bool := do return (← front?).isNone

/-- Reads the directives before a document, and the mark of its start. -/
def documentStart (fuel : Nat) : Reading Unit := do
  let handles ← directives fuel false []
  expect .documentStart
  modify fun r => { r with handles := handles ++ commonHandles }

/-- Reads a document whose start is marked. -/
def markedDocument (fuel : Nat) : Reading (Option Nat) := do
  dropDocumentEnds fuel
  if ← atEnd then return none
  documentStart fuel
  if (← atEnd) ||
      (← sees fun t => isDirective t || t == .documentStart || t == .documentEnd) then
    return some (← add .empty)
  return some (← node fuel .block)

/-- Reads the document of a text, and sees that there is no other. -/
def document (fuel : Nat) : Reading (Option Nat) := do
  let n ←
    if (← atEnd) || (← sees fun t => isDirective t || t == .documentStart) then
      markedDocument fuel
    else
      modify fun r => { r with handles := commonHandles }
      some <$> node fuel .block
  dropDocumentEnds fuel
  if ← atEnd then return n
  documentStart fuel
  fault

end Reading

/-- The nodes of a text, and the number of the outermost one; `none` for a text without a
document.  The text may be cut off. -/
def Graph.ofText (cs : List Char) (cut : Option Fault) : Except Fault (Option (Nat × Graph)) := do
  let tokens := Tokens.ofText cs cut
  let (n, r) ← (Reading.document (3 * tokens.found.length + 10)).run ⟨tokens, 0, #[], [], []⟩
  return n.map fun n => (n, r.graph)

end ReleaseFetch.Yaml
