/-
**Streaming a download to disk.**

A download follows redirects up to a limit.  On every hop the headers are scoped anew, so a
credential for the trusted host is not passed on to the host it redirects to.  The body goes into a
private file beside its destination, which it replaces only when it is complete; whatever goes
wrong on the way, that file is removed and the response is closed.

Main definitions:

* `ReleaseFetch.Stream.partialPath` — the path of the private file;
* `ReleaseFetch.Stream.receive` — a body written chunk by chunk;
* `ReleaseFetch.Stream.keep` — a response written to its destination;
* `ReleaseFetch.Stream.download` — the chain of requests.
-/

import ReleaseFetch.Files
import ReleaseFetch.Http.Client
import ReleaseFetch.Url.Join

set_option autoImplicit false

namespace ReleaseFetch.Stream

open Session

/-! ### The private file -/

/-- The number of bytes that are read at a time. -/
def chunkSize : Nat := 8192

/-- The number of names that are tried for a private file. -/
def attemptLimit : Nat := 10000

/-- The letters that make a private name its own.  The first choice is fixed; after it the
choices are numbered. -/
def mark (n : Nat) : String :=
  if n = 0 then "XXXXXXXX"
  else
    let digits := toString n
    String.ofList (List.replicate (8 - digits.length) '0') ++ digits

/-- The directory of the private file, from the root. -/
def partialDirectory (d : Disk) (destination : Path) : Except Failure Path :=
  match destination.root with
  | .here => d.workingPath.map fun here => Path.absolute here destination.parent
  | _ => .ok (Path.absolute d.herePath destination.parent)

/-- The path of a private file. -/
def partialPath (directory destination : Path) (n : Nat) : Path :=
  ⟨directory.root, directory.names ++ [s!".{destination.name}.{mark n}.part"]⟩

/-- Makes a private file under the first name that is not taken; `left` names are still to try. -/
def openPartial (directory destination : Path) : (left : Nat) → Session Path
  | 0 => throw (.device "[Errno 17] No usable temporary file name found")
  | left + 1 => do
    let p := partialPath directory destination (attemptLimit - (left + 1))
    let w : World ← get
    match ← give (w.disk.createNew p) with
    | some d =>
      change fun _ => .ok d
      return p
    | none => openPartial directory destination left

/-! ### The body -/

/-- Writes the chunks of a body to the end of a file, up to the one that fails. -/
def receive (p : Path) : List Chunk → Session Unit
  | [] => pure ()
  | .failure f :: _ => throw f
  | .bytes bytes :: rest => do
    change (·.append p bytes)
    receive p rest

/-- Reads a response into a private file and moves it to the destination. -/
def fill (r : Response) (temporary destination : Path) : Session Unit := do
  startReading r chunkSize
  receive temporary r.reply.chunks
  change (·.replace temporary destination)

/-- Notes why a body was not kept, removes what stands at the destination, and passes the failure
on; what the network reports becomes a problem of the tool.  An interrupt is passed on as it is. -/
def abandon (destination : Path) (f : Failure) : Session Unit := do
  if f.isInterrupt then throw f
  log .error .download s!"Error during download: {f.message}"
  let _ ← Files.discard destination
  if f.isNetwork then fail (.transport s!"Download interrupted: {f.message}") else throw f

/-- Writes a response to its destination. -/
def keep (r : Response) (destination : Path) : Session Unit := do
  Files.ensureDirectory destination.parent
  let directory ← look (partialDirectory · destination)
  let temporary ← openPartial directory destination attemptLimit
  let outcome ← attempt do
    match ← attempt (fill r temporary destination) with
    | .ok () => pure ()
    | .error f => abandon destination f
  close r
  let _ ← Files.discard temporary
  give outcome

/-! ### The chain of requests -/

/-- The status that redirects. -/
def redirectStatus : Int := 302

/-- What a response means for the chain. -/
inductive Next where
  | go (url : String)
  | finish (response : Response)

/-- Sends one request of the chain.  A failure of the network removes what stands at the
destination. -/
def hop (c : Client) (h : Host) (o : Options) (destination : Path) (url : String) :
    Session Response := do
  let headers ← give (o.headers.scopedTo url o.trustedHost)
  let proxy ← Proxy.forRequest h url o
  let shownProxy ← match proxy with
    | some p => give (Proxy.redacted p)
    | none => pure "None"
  log .debug .download
    s!"Download options: headers={headers.redacted.shown} proxy={shownProxy}"
  match ← attempt (send (c.request url headers proxy o true)) with
  | .ok response => return response
  | .error f =>
    if f.isNetwork then
      let _ ← Files.discard destination
      fail (.transport s!"Download of {url} failed: {f.message}")
    else throw f

/-- Reads the status of a response: a redirect names the next URL, and anything but success ends
the chain. -/
def judge (url : String) (response : Response) : Session Next := do
  let status := response.reply.status
  log .debug .download s!"statusCode: {status}"
  if status = redirectStatus then
    close response
    match (response.reply.headers.find? "location").filter (· != "") with
    | none => fail (.downloadFailed status url)
    | some location =>
      let next ← give (Url.join url location)
      log .info .download s!"Following redirect to: {next}"
      return .go next
  else if status != 200 then
    close response
    fail (.downloadFailed status url)
  else return .finish response

/-- Follows the chain from a URL with so many requests left; `first` and `limit` are for the
message. -/
def follow (c : Client) (h : Host) (o : Options) (destination : Path) (first : String)
    (limit : Int) : (left : Nat) → String → Session Unit
  | 0, _ => fail (.tooManyRedirects first limit)
  | left + 1, url => do
    let response ← hop c h o destination url
    match ← judge url response with
    | .go next => follow c h o destination first limit left next
    | .finish response =>
      keep response destination
      log .info .download s!"Download complete: {destination.text}"

/-- Downloads a URL to a file, over at most `limit` redirects. -/
def download (c : Client) (h : Host) (limit : Int) (url : String) (destination : Path)
    (o : Options) : Session Unit :=
  follow c h o destination url limit (limit + 1).toNat url

end ReleaseFetch.Stream
