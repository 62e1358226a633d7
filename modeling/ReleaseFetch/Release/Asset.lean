/-
**The assets of a release.**

The answer of the release interface is read into a listing before any part of it is trusted: it is
malformed, it has no list of assets, or it lists assets.  Entries that are no assets are dropped.

Main definitions:

* `ReleaseFetch.Asset`, `ReleaseFetch.Listing`;
* `ReleaseFetch.Listing.ofText` — the listing of an answer;
* `ReleaseFetch.Listing.find?` — the first asset of a name.
-/

import ReleaseFetch.Failure
import ReleaseFetch.Json.Reader

set_option autoImplicit false

namespace ReleaseFetch

/-- A file of a release. -/
structure Asset where
  name : String
  url : String
  deriving DecidableEq

/-- What an answer of the release interface says. -/
inductive Listing where
  | malformed (detail : String)
  | withoutAssets (body : String)
  | assets (found : List Asset) (dropped : Nat)
  deriving DecidableEq

namespace Listing

/-- The text of a string; halves of pairs in it are replaced. -/
def visibleText? : Json.Value → Option String
  | .string s => some s
  | .loose gs => some (String.ofList (Text.visibleChars gs))
  | _ => none

/-- An entry with a name and a URL. -/
def isAsset (v : Json.Value) : Bool :=
  ((v.field? "name").bind visibleText?).isSome && ((v.field? "url").bind visibleText?).isSome

/-- The asset of an entry.  A name that holds halves of pairs is the name of no asset that can be
asked for. -/
def assetOf (v : Json.Value) : Option Asset :=
  match (v.field? "name").bind (·.text?), (v.field? "url").bind visibleText? with
  | some name, some url => some ⟨name, url⟩
  | _, _ => none

/-- The listing of a value; `body` is the text it was read from. -/
def ofValue (body : String) (v : Json.Value) : Listing :=
  match v.field? "assets" with
  | some (.array entries) => .assets (entries.filterMap assetOf) (entries.countP fun e => !isAsset e)
  | _ => .withoutAssets body

/-- The listing of an answer.  One that is nested too deeply cannot be read at all. -/
def ofText (body : String) : Except Failure Listing :=
  match Json.parse body with
  | .error (.tooDeep isObject) =>
    .error (.value .recursion (Json.describe body (.tooDeep isObject)))
  | .error f => .ok (.malformed (Json.describe body f))
  | .ok v => .ok (ofValue body v)

/-- The assets of a listing. -/
def found : Listing → List Asset
  | .assets as _ => as
  | _ => []

/-- The first asset of a name. -/
def find? (l : Listing) (name : String) : Option Asset := l.found.find? fun a => a.name == name

end Listing

end ReleaseFetch
