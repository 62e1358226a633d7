/-
**Reading UTF-8.**

Bytes are cut into pieces: a well-formed sequence gives a character, and what cannot be continued
to one is a fault of one to three bytes.  A strict reader stops at the first fault and says where
it is; a lenient one puts the replacement character in its place.

Main definitions:

* `ReleaseFetch.Text.Utf8.Piece`, `ReleaseFetch.Text.Utf8.pieces` — the cut;
* `ReleaseFetch.Text.Utf8.decode` — the text, or the first fault;
* `ReleaseFetch.Text.Utf8.decodeLossy` — the text with every fault replaced;
* `ReleaseFetch.Text.Utf8.encode` — the bytes of a text.
-/

set_option autoImplicit false

namespace ReleaseFetch.Text.Utf8

/-! ### Pieces -/

/-- Why bytes are not a character. -/
inductive Reason where
  | start
  | continuation
  | truncated
  deriving DecidableEq

/-- The words for a reason. -/
def Reason.text : Reason → String
  | .start => "invalid start byte"
  | .continuation => "invalid continuation byte"
  | .truncated => "unexpected end of data"

/-- A character with its length in bytes, or a fault with its length. -/
inductive Piece where
  | char (c : Char) (length : Nat)
  | fault (reason : Reason) (length : Nat)

/-- The number of bytes of a piece. -/
def Piece.length : Piece → Nat
  | .char _ n => n
  | .fault _ n => n

/-- The byte continues a sequence. -/
def continues (b : UInt8) : Bool := 0x80 ≤ b && b ≤ 0xbf

/-- Reads `missing` more continuation bytes of a sequence of which `got` bytes are known. -/
def continuation (value got : Nat) : (missing : Nat) → List UInt8 → Piece
  | 0, _ => .char (Char.ofNat value) got
  | _ + 1, [] => .fault .truncated got
  | missing + 1, b :: rest =>
    if continues b then
      continuation (value * 64 + (b.toNat - 0x80)) (got + 1) missing rest
    else .fault .continuation got

/-- Reads a sequence of `missing` bytes more, the first of them between `low` and `high`. -/
def sequence (value missing : Nat) (low high : UInt8) : List UInt8 → Piece
  | [] => .fault .truncated 1
  | b :: rest =>
    if low ≤ b && b ≤ high then
      continuation (value * 64 + (b.toNat - 0x80)) 2 (missing - 1) rest
    else .fault .continuation 1

/-- The piece that starts with the byte `b`, before `rest`. -/
def pieceAt (b : UInt8) (rest : List UInt8) : Piece :=
  if b < 0x80 then .char (Char.ofNat b.toNat) 1
  else if b < 0xc2 then .fault .start 1
  else if b < 0xe0 then sequence (b.toNat - 0xc0) 1 0x80 0xbf rest
  else if b < 0xf0 then
    sequence (b.toNat - 0xe0) 2 (if b = 0xe0 then 0xa0 else 0x80) (if b = 0xed then 0x9f else 0xbf)
      rest
  else if b < 0xf5 then
    sequence (b.toNat - 0xf0) 3 (if b = 0xf0 then 0x90 else 0x80) (if b = 0xf4 then 0x8f else 0xbf)
      rest
  else .fault .start 1

/-- The pieces of a list of bytes whose first `skip` bytes belong to the piece before. -/
def piecesFrom : (skip : Nat) → List UInt8 → List Piece
  | _, [] => []
  | skip + 1, _ :: rest => piecesFrom skip rest
  | 0, b :: rest =>
    let p := pieceAt b rest
    p :: piecesFrom (p.length - 1) rest

/-- The pieces of a list of bytes, in order. -/
def pieces (bytes : List UInt8) : List Piece := piecesFrom 0 bytes

/-! ### Readers -/

/-- A fault, with the bytes it covers. -/
structure Fault where
  reason : Reason
  position : Nat
  length : Nat
  first : UInt8
  deriving DecidableEq

/-- The characters up to the first fault, if there is one; `position` counts the bytes before. -/
def decodeFrom (position : Nat) (bytes : List UInt8) : List Piece → Except Fault (List Char)
  | [] => .ok []
  | .char c n :: rest => do
    let cs ← decodeFrom (position + n) bytes rest
    return c :: cs
  | .fault reason n :: _ => .error ⟨reason, position, n, (bytes.drop position).headD 0⟩

/-- The text of the bytes, or the first fault. -/
def decode (bytes : List UInt8) : Except Fault (List Char) := decodeFrom 0 bytes (pieces bytes)

/-- The text of the bytes, with a replacement character for every fault. -/
def decodeLossy (bytes : List UInt8) : List Char :=
  (pieces bytes).map fun
    | .char c _ => c
    | .fault _ _ => '\ufffd'

/-- The bytes of a text. -/
def encode (s : String) : List UInt8 := s.toUTF8.data.toList

/-- The number of bytes of a text. -/
def size (s : String) : Nat := s.utf8ByteSize

end ReleaseFetch.Text.Utf8
