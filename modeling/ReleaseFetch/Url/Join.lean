/-
**A location as seen from another URL.**

A redirect names its goal relative to the URL that it came from.  Segments are merged and dots are
taken out; going up from the top leads nowhere and is ignored.

Main definitions:

* `ReleaseFetch.Url.settleSegments` — dots taken out of a path;
* `ReleaseFetch.Url.join` — the URL that a location names.
-/

import ReleaseFetch.Url.Basic

set_option autoImplicit false

namespace ReleaseFetch.Url

open Text

/-- The schemes in which locations may be relative. -/
def relativeSchemes : List String :=
  ["", "ftp", "http", "gopher", "nntp", "imap", "wais", "file", "https", "shttp", "mms",
   "prospero", "rtsp", "rtspu", "sftp", "svn", "svn+ssh", "ws", "wss"]

/-- Takes dots out of segments; `done` holds the segments kept, last first. -/
def settleFrom (done : List (List Char)) : List (List Char) → List (List Char)
  | [] => done.reverse
  | s :: rest =>
    if s == ['.', '.'] then settleFrom done.tail rest
    else if s == ['.'] then settleFrom done rest
    else settleFrom (s :: done) rest

/-- The segment is a dot or two dots. -/
def isDots (s : List Char) : Bool := s == ['.'] || s == ['.', '.']

/-- The segments without dots; dots at the end leave a slash there. -/
def settleSegments (segments : List (List Char)) : List (List Char) :=
  settleFrom [] segments ++ (if (segments.getLast?.map isDots).getD false then [[]] else [])

/-- Drops empty segments, except at the two ends. -/
def dropInnerEmpty (segments : List (List Char)) : List (List Char) :=
  segments.take 1 ++ ((segments.drop 1).dropLast.filter fun s => !s.isEmpty) ++
    (segments.drop 1).drop (segments.length - 2)

/-- The segments of a base path that a relative path is merged with. -/
def baseSegments (path : List Char) : List (List Char) :=
  let segments := pieces '/' path
  if segments.getLast? == some [] then segments else segments.dropLast

/-- The segments of a path as seen from a base path. -/
def mergedSegments (basePath path : List Char) : List (List Char) :=
  if path.head? == some '/' then pieces '/' path
  else dropInnerEmpty (baseSegments basePath ++ pieces '/' path)

/-- The path as seen from a base path. -/
def mergedPath (basePath path : List Char) : List Char :=
  let joined := joinWith ['/'] (settleSegments (mergedSegments basePath path))
  if joined.isEmpty then ['/'] else joined

/-- The URL that `location` names at `base`. -/
def join (base location : String) : Except Failure String :=
  if base.isEmpty then .ok location
  else if location.isEmpty then .ok base
  else match ofText base with
    | .error f => .error f
    | .ok b =>
      match ofTextWith b.scheme location with
      | .error f => .error f
      | .ok l =>
        if l.scheme != b.scheme || !relativeSchemes.contains (String.ofList l.scheme) then
          .ok location
        else if !l.authority.isEmpty then .ok l.text
        else if l.path.isEmpty && l.params.isEmpty then
          .ok ({ l with
            authority := b.authority, path := b.path, params := b.params,
            query := if l.query.isEmpty then b.query else l.query } : Url).text
        else
          .ok ({ l with
            authority := b.authority, path := mergedPath b.path l.path } : Url).text

end ReleaseFetch.Url
