/-
**One request, one text.**

Metadata is fetched by a single request that follows no redirect.  Anything but success is a
problem of the tool; what the network reports is wrapped into one.

Main definitions:

* `ReleaseFetch.Client` — the sender of requests;
* `ReleaseFetch.Client.getText` — the text that a URL answers with.
-/

import ReleaseFetch.Http.Proxy

set_option autoImplicit false

namespace ReleaseFetch

/-- The sender of requests.  One that a run makes for itself takes nothing from the environment;
one that it is given may. -/
structure Client where
  trustsEnvironment : Bool
  deriving DecidableEq

namespace Client

open Session

/-- The client that a run makes for itself. -/
def own : Client := ⟨false⟩

/-- The client that a run is given. -/
def given : Client := ⟨true⟩

/-- The request to a URL.  The sender is never left to follow a redirect by itself. -/
def request (c : Client) (url : String) (headers : Headers) (proxy : Option String) (o : Options)
    (streamed : Bool) : Request :=
  ⟨url, headers, proxy, o.timeout, streamed, false, c.trustsEnvironment⟩

/-- Turns what the network reports into a problem of the tool. -/
def wrapNetwork {α : Type} (what : String) (x : Session α) : Session α := do
  match ← attempt x with
  | .ok a => return a
  | .error f => if f.isNetwork then fail (.transport s!"{what}: {f.message}") else throw f

/-- The text that a URL answers with. -/
def getText (c : Client) (h : Host) (url : String) (o : Options) : Session String := do
  log .info .download s!"GET {url}"
  let headers ← give (o.headers.scopedTo url o.trustedHost)
  let proxy ← Proxy.forRequest h url o
  if let some p := proxy then
    log .debug .download s!"Using proxy {← give (Proxy.redacted p)}"
  let response ← wrapNetwork s!"Request to {url} failed" (send (c.request url headers proxy o false))
  if response.reply.status != 200 then fail (.httpStatus response.reply.status url)
  return response.reply.text

end Client

end ReleaseFetch
