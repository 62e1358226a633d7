/-
**Addresses on the web.**

A URL is cut into scheme, authority, path, parameters, query and fragment, and put together again.
Cutting fails only where the authority is ambiguous: unbalanced brackets, a bracketed host that is
no address, or a character that stands for a delimiter in a compatible spelling.

Main definitions:

* `ReleaseFetch.Url`, `ReleaseFetch.Url.ofText`, `ReleaseFetch.Url.text`.
-/

import ReleaseFetch.Text.Lowercase
import ReleaseFetch.Url.Address

set_option autoImplicit false

namespace ReleaseFetch

/-- The parts of a URL, as characters, since all that is done with them is cutting. -/
structure Url where
  scheme : List Char
  authority : List Char
  path : List Char
  params : List Char
  query : List Char
  fragment : List Char
  deriving DecidableEq

namespace Url

open Text

/-! ### Cleaning -/

/-- Controls and the plain space, which are dropped in front. -/
def isControlOrSpace (c : Char) : Bool := c.toNat ≤ 0x20

/-- The characters that are dropped everywhere. -/
def isLineOrTab (c : Char) : Bool := c == '\t' || c == '\n' || c == '\r'

/-- The text that is cut. -/
def cleaned (cs : List Char) : List Char :=
  (cs.dropWhile isControlOrSpace).filter fun c => !isLineOrTab c

/-! ### Scheme -/

/-- A letter `a` to `z` of either case. -/
def isLetter (c : Char) : Bool := ('a' ≤ c && c ≤ 'z') || ('A' ≤ c && c ≤ 'Z')

/-- A character of a scheme. -/
def isSchemeChar (c : Char) : Bool :=
  isLetter c || ('0' ≤ c && c ≤ '9') || c == '+' || c == '-' || c == '.'

/-- The scheme, in lower case, and what follows its colon. -/
def cutScheme (cs : List Char) : List Char × List Char :=
  match cutFirst? ':' cs with
  | some (s, rest) =>
    if (s.head?.map isLetter).getD false && s.all isSchemeChar then (s.map Char.toLower, rest)
    else ([], cs)
  | none => ([], cs)

/-! ### Authority -/

/-- A character that ends the authority. -/
def endsAuthority (c : Char) : Bool := c == '/' || c == '?' || c == '#'

/-- The authority after two slashes, and what follows it. -/
def cutAuthority : List Char → List Char × List Char
  | '/' :: '/' :: rest =>
    (rest.takeWhile fun c => !endsAuthority c, rest.dropWhile fun c => !endsAuthority c)
  | cs => ([], cs)

/-- What follows the last `@` of an authority: host and port. -/
def hostAndPort (authority : List Char) : List Char := afterLast '@' authority

/-- What is wrong with the brackets of an authority. -/
def bracketsFault? (authority : List Char) : Option String :=
  if authority.contains '[' != authority.contains ']' then some "Invalid IPv6 URL"
  else if !authority.contains '[' then none
  else match cutFirst? '[' (hostAndPort authority) with
    | some (before, inside) =>
      let (host, after) := (cutFirst? ']' inside).getD (inside, [])
      if !before.isEmpty then some "Invalid IPv6 URL"
      else if !after.isEmpty && after.head? != some ':' then some "Invalid IPv6 URL"
      else bracketFault? host
    | none => bracketFault? (beforeFirst ':' (hostAndPort authority))

/-- Characters whose compatible spelling holds a delimiter of a URL. -/
def hiddenDelimiters : List Nat :=
  [0x2047, 0x2048, 0x2049, 0x2100, 0x2101, 0x2105, 0x2106, 0x2a74, 0xfe13, 0xfe16, 0xfe55, 0xfe56,
   0xfe5f, 0xfe6b, 0xff03, 0xff0f, 0xff1a, 0xff1f, 0xff20]

/-- What is wrong with the characters of an authority. -/
def spellingFault? (authority : List Char) : Option String :=
  if authority.any fun c => hiddenDelimiters.contains c.toNat then
    some (s!"netloc '{String.ofList authority}' contains invalid " ++
      "characters under NFKC normalization")
  else none

/-! ### Path, query and fragment -/

/-- The text before the first `sep` and the text after it, which may be nothing. -/
def cutOff (sep : Char) (cs : List Char) : List Char × List Char :=
  (cutFirst? sep cs).getD (cs, [])

/-- The schemes whose last path segment may carry parameters. -/
def schemesWithParams : List String :=
  ["", "ftp", "hdl", "prospero", "http", "imap", "https", "shttp", "rtsp", "rtspu", "sip", "sips",
   "mms", "sftp", "tel"]

/-- The path, and the parameters after the first semicolon of its last segment. -/
def cutParams (cs : List Char) : List Char × List Char :=
  match cutLast? '/' cs with
  | none => cutOff ';' cs
  | some (front, segment) =>
    let (name, params) := cutOff ';' segment
    (front ++ '/' :: name, params)

/-! ### Reading and writing -/

/-- The parts of a text, which has the scheme `fallback` if it names none. -/
def ofTextWith (fallback : List Char) (s : String) : Except Failure Url :=
  let (named, afterScheme) := cutScheme (cleaned s.toList)
  let scheme := if named.isEmpty then fallback else named
  let (authority, afterAuthority) := cutAuthority afterScheme
  match bracketsFault? authority with
  | some fault => .error (.badValue fault)
  | none =>
    let (beforeFragment, fragment) := cutOff '#' afterAuthority
    let (whole, query) := cutOff '?' beforeFragment
    match spellingFault? authority with
    | some fault => .error (.badValue fault)
    | none =>
      let (path, params) :=
        if schemesWithParams.contains (String.ofList scheme) then cutParams whole else (whole, [])
      .ok ⟨scheme, authority, path, params, query, fragment⟩

/-- The parts of a text. -/
def ofText (s : String) : Except Failure Url := ofTextWith [] s

/-- The schemes that are written with two slashes even without an authority. -/
def schemesWithAuthority : List String :=
  ["", "ftp", "http", "gopher", "nntp", "telnet", "imap", "wais", "file", "mms", "https", "shttp",
   "snews", "prospero", "rtsp", "rtspu", "rsync", "svn", "svn+ssh", "sftp", "nfs", "git",
   "git+ssh", "ws", "wss"]

/-- A mark and the part after it; nothing for an empty part. -/
def withMark (mark : Char) (part : List Char) : List Char :=
  if part.isEmpty then [] else mark :: part

/-- The URL put together again; marks of empty parts are dropped. -/
def chars (u : Url) : List Char :=
  let whole := u.path ++ withMark ';' u.params
  let slashes :=
    !u.authority.isEmpty ||
      (!u.scheme.isEmpty && schemesWithAuthority.contains (String.ofList u.scheme) &&
        !(['/', '/'].isPrefixOf whole))
  let body :=
    if slashes then
      '/' :: '/' :: u.authority ++
        (if !whole.isEmpty && whole.head? != some '/' then '/' :: whole else whole)
    else whole
  let schemed := if u.scheme.isEmpty then body else u.scheme ++ ':' :: body
  schemed ++ withMark '?' u.query ++ withMark '#' u.fragment

/-- The URL put together again, as a text. -/
def text (u : Url) : String := String.ofList u.chars

end Url

end ReleaseFetch
