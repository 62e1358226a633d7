/-
**Reading a text page by page.**

A file is decoded in chunks and handed out in pages of a fixed number of characters.  A chunk is
asked for only when a page needs more characters than are ready, so a fault in the bytes is met
with the page that needs them.  The first two pages are handed out together.  A sequence that a
chunk cuts off is carried over to the next one, and the position of a fault counts from what was
carried.  Every line ending becomes a line feed.

Main definitions:

* `ReleaseFetch.Text.Paged.Feed`, `ReleaseFetch.Text.Paged.fetch` — how far a file is decoded, and
  the next chunk;
* `ReleaseFetch.Text.Paged.page` — the next page;
* `ReleaseFetch.Text.Paged.read` — all pages up to the first fault.
-/

import ReleaseFetch.Text.Utf8

set_option autoImplicit false

namespace ReleaseFetch.Text.Paged

/-- The number of characters of a page. -/
def pageSize : Nat := 4096

/-- The least number of bytes of a chunk, unless the file ends before. -/
def chunkSize : Nat := 8192

/-- Makes a line feed of every line ending. -/
def unifyLines : List Char → List Char
  | [] => []
  | '\r' :: '\n' :: rest => '\n' :: unifyLines rest
  | '\r' :: rest => '\n' :: unifyLines rest
  | c :: rest => c :: unifyLines rest

/-- How far a file is decoded: the bytes that are left, those carried over, a carriage return that
waits for what follows it, the bytes and the characters of the last chunk, and the characters that
are ready. -/
structure Feed where
  left : List UInt8
  carried : List UInt8
  returned : Bool
  lastBytes : Nat
  lastChars : Nat
  ready : List Char
  ended : Bool

/-- The start of a file. -/
def Feed.start (bytes : List UInt8) : Feed := ⟨bytes, [], false, 0, 0, [], false⟩

/-- The bytes end with a sequence that is cut off.  The first two bytes of half of a pair count as
one: they are refused only with what follows them. -/
def isCutOff (f : Utf8.Fault) (bytes : List UInt8) : Bool :=
  f.reason = .truncated ||
    match bytes.drop f.position with
    | [b, c] => b == 0xed && Utf8.continues c
    | _ => false

/-- The characters of bytes, and the bytes of a sequence that is cut off at their end. -/
def decodeChunk (isLast : Bool) (bytes : List UInt8) :
    Except Utf8.Fault (List Char × List UInt8) :=
  match Utf8.decode bytes with
  | .ok cs => .ok (cs, [])
  | .error f =>
    if isCutOff f bytes && !isLast then
      (Utf8.decode (bytes.take f.position)).map fun cs => (cs, bytes.drop f.position)
    else .error f

/-- The number of bytes to ask for where so many characters are wanted: as many as the last chunk
took for them. -/
def Feed.sizeFor (f : Feed) (wanted : Nat) : Nat :=
  if f.lastChars < f.lastBytes && f.lastChars != 0 then
    max chunkSize (wanted * f.lastBytes / f.lastChars)
  else max chunkSize wanted

/-- Decodes the next chunk. -/
def fetch (f : Feed) (wanted : Nat) : Except Utf8.Fault Feed := do
  let input := f.left.take (f.sizeFor wanted)
  let isLast := input.isEmpty
  let (decoded, carried) ← decodeChunk isLast (f.carried ++ input)
  let cs := if f.returned && (isLast || !decoded.isEmpty) then '\r' :: decoded else decoded
  let waits := !isLast && cs.getLast? == some '\r'
  let lines := unifyLines (if waits then cs.dropLast else cs)
  return ⟨f.left.drop input.length, carried, waits || (f.returned && !isLast && decoded.isEmpty),
    input.length, lines.length, f.ready ++ lines, isLast && lines.isEmpty⟩

/-- The next page, which is short only at the end of the file. -/
def page : (fuel : Nat) → Feed → Except Utf8.Fault (List Char × Feed)
  | 0, f => .ok (f.ready, { f with ready := [] })
  | fuel + 1, f => do
    let missing := pageSize - f.ready.length
    if missing = 0 || f.ended then
      return (f.ready.take pageSize, { f with ready := f.ready.drop pageSize })
    else page fuel (← fetch f missing)

/-- Pages, and the fault behind them. -/
structure Pages where
  found : List (List Char)
  fault : Option Utf8.Fault

/-- The pages from here on. -/
def pagesFrom : (fuel : Nat) → Feed → Pages
  | 0, _ => ⟨[], none⟩
  | fuel + 1, f =>
    match page (f.left.length + 2) f with
    | .error fault => ⟨[], some fault⟩
    | .ok (cs, f) =>
      if cs.isEmpty then ⟨[], none⟩
      else
        let more := pagesFrom fuel f
        ⟨cs :: more.found, more.fault⟩

/-- The pages with the first two as one; if the second is missing for a fault, so is the first. -/
def Pages.joinFirst (p : Pages) : Pages :=
  match p.found, p.fault with
  | [_], some fault => ⟨[], some fault⟩
  | first :: second :: rest, fault => ⟨(first ++ second) :: rest, fault⟩
  | found, fault => ⟨found, fault⟩

/-- The pages of a file. -/
def read (bytes : List UInt8) : Pages := (pagesFrom (bytes.length + 1) (.start bytes)).joinFirst

end ReleaseFetch.Text.Paged
