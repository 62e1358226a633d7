/-
**Headers, and who may see the credentials.**

A request may carry a credential in its authorization header.  Only the trusted host is allowed to
receive it; for every other host the header is dropped, in whatever letter case it is written.  In
the journal its value is masked.

Main definitions:

* `ReleaseFetch.Options` — what a request is sent with;
* `ReleaseFetch.Headers.scopedTo` — the headers that may be sent to a URL;
* `ReleaseFetch.Headers.redacted` — the headers as the journal shows them.
-/

import ReleaseFetch.Fields
import ReleaseFetch.Url.Authority
import ReleaseFetch.World

set_option autoImplicit false

namespace ReleaseFetch

/-- The host of the release interface, which is trusted unless another is named. -/
def defaultTrustedHost : String := "api.github.com"

/-- What a request is sent with. -/
structure Options where
  headers : Headers
  proxy : Option String
  trustedHost : String
  timeout : Option Seconds
  deriving DecidableEq

/-- Sets a header; one of the same spelling is replaced in its place. -/
def Options.withHeader (o : Options) (name value : String) : Options :=
  { o with headers := Fields.set name value o.headers }

namespace Headers

/-- The header carries a credential. -/
def isCredential (name : String) : Bool := Text.lower name == "authorization"

/-- The headers without credentials. -/
def withoutCredentials (hs : Headers) : Headers := hs.filter fun h => !isCredential h.1

/-- The headers that may be sent to a URL. -/
def scopedTo (hs : Headers) (url trusted : String) : Except Failure Headers :=
  match Url.hostOf url with
  | .error f => .error f
  | .ok host => .ok (if host == Text.lower trusted then hs else hs.withoutCredentials)

/-- The headers with credentials masked. -/
def redacted (hs : Headers) : Headers :=
  hs.map fun (name, value) => (name, if isCredential name then "***" else value)

/-- The header is the name of the program that asks. -/
def isUserAgent (name : String) : Bool := Text.lower name == "user-agent"

/-- Headers as the journal shows them. -/
def shown (hs : Headers) : String :=
  let fields := hs.map fun (name, value) => Text.quoted name ++ ": " ++ Text.quoted value
  "\x7b" ++ Text.join ", " fields ++ "\x7d"

/-- The value of a header, whatever its letter case; of several the last. -/
def find? (hs : Headers) (name : String) : Option String :=
  (hs.reverse.find? fun h => Text.lower h.1 == name).map (·.2)

end Headers

end ReleaseFetch
