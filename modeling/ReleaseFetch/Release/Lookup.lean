/-
**Finding an asset.**

The release of a tag is asked for once, with the credential if there is one, and the asset is
looked up by its exact name.

Main definitions:

* `ReleaseFetch.Release.url` — where a release is described;
* `ReleaseFetch.Release.readListing` — the listing of an answer, dropped entries noted;
* `ReleaseFetch.Release.locate` — the asset of a name.
-/

import ReleaseFetch.Http.Client
import ReleaseFetch.Release.Asset

set_option autoImplicit false

namespace ReleaseFetch.Release

open Session

/-- Where the release of a tag is described. -/
def url (apiHost repo tag : String) : String :=
  s!"https://{apiHost}/repos/{repo}/releases/tags/{tag}"

/-- The listing of an answer; dropped entries are noted in the journal. -/
def readListing (body : String) : Session Listing := do
  let listing ← give (Listing.ofText body)
  match listing with
  | .assets _ dropped =>
    if dropped != 0 then log .debug .releases s!"Ignored {dropped} malformed asset entries"
  | _ => pure ()
  return listing

/-- What is asked for. -/
structure Query where
  repo : String
  version : String
  asset : String
  token : Option String
  userAgent : String
  apiHost : String
  timeout : Option Seconds
  deriving DecidableEq

/-- The value of the header that carries a token. -/
def credential (token : String) : String := s!"token {token}"

/-- Adds the credential of a token that is not empty. -/
def withToken (o : Options) (token : Option String) : Options :=
  match token.filter (· != "") with
  | some t => o.withHeader "authorization" (credential t)
  | none => o

/-- What the description of a release is asked for with. -/
def Query.options (q : Query) : Options :=
  withToken ⟨[("user-agent", q.userAgent)], none, q.apiHost, q.timeout⟩ q.token

/-- The number of characters of an unusable answer that are shown. -/
def shownLimit : Nat := 500

/-- The asset that a listing has under a name. -/
def pick (listing : Listing) (name : String) : Session Asset :=
  match listing with
  | .malformed detail => fail (.malformedResponse s!"Malformed API response: {detail}")
  | .withoutAssets body =>
    fail (.badResponse s!"Bad API response: {String.ofList (body.toList.take shownLimit)}")
  | .assets .. =>
    match listing.find? name with
    | none => fail (.assetNotFound name)
    | some a => do
      log .debug .releases s!"Matched asset {a.name} -> {a.url}"
      return a

/-- Finds an asset of a release. -/
def locate (c : Client) (h : Host) (q : Query) : Session Asset := do
  log .info .releases s!"Finding release for {q.version}"
  let body ← c.getText h (url q.apiHost q.repo q.version) q.options
  let listing ← readListing body
  pick listing q.asset

end ReleaseFetch.Release
