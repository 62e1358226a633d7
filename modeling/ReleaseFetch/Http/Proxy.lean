/-
**Proxies.**

Which proxy a request takes is read from environment variables, those of the package manager
first.  A list of exceptions names the hosts that are reached without one: an entry that starts
with a dot or a star names all hosts with that ending, any other entry one host, and a port
restricts an entry to that port.

Main definitions:

* `ReleaseFetch.Proxy.excepts` — a host is on the list of exceptions;
* `ReleaseFetch.Proxy.configured` — the proxies that the environment names;
* `ReleaseFetch.Proxy.choose` — the proxy of a URL;
* `ReleaseFetch.Proxy.redacted` — a proxy as the journal shows it;
* `ReleaseFetch.Proxy.forUrl` — the choice as a step of a run, noted in the journal.
-/

import ReleaseFetch.Host
import ReleaseFetch.Http.Headers

set_option autoImplicit false

namespace ReleaseFetch.Proxy

open Text

/-! ### Exceptions -/

/-- An entry of the list of exceptions: a host or an ending, and the text of its port. -/
structure Entry where
  host : List Char
  port : List Char
  deriving DecidableEq

/-- Reads an entry: digits after the last colon are a port. -/
def Entry.ofChars (cs : List Char) : Entry :=
  match cutLast? ':' cs with
  | some (host, port) => if !port.isEmpty && port.all isDigit then ⟨host, port⟩ else ⟨cs, []⟩
  | none => ⟨cs, []⟩

/-- The entry holds for a port: it names none, or the same number. -/
def Entry.coversPort (e : Entry) (port : Int) : Except Failure Bool :=
  if e.port.isEmpty then .ok true
  else match Numeral.integer 10 (String.ofList e.port) with
    | .ok n => .ok (n == port)
    | .error f => .error (.badValue f.text)

/-- The entry holds for a host: it is the host, or an ending of it. -/
def Entry.coversHost (e : Entry) (hostname : List Char) : Bool :=
  match e.host with
  | '*' :: ending => ending.isSuffixOf hostname
  | '.' :: rest => ('.' :: rest).isSuffixOf hostname
  | host => hostname == host

/-- One of the entries holds for the host and the port.  Entries are tried in order, and the rest
is not looked at once one holds. -/
def anyCovers (hostname : List Char) (port : Int) : List (List Char) → Except Failure Bool
  | [] => .ok false
  | cs :: rest =>
    if cs == ['*'] then .ok true
    else
      let e := Entry.ofChars cs
      match e.coversPort port with
      | .error f => .error f
      | .ok true => if e.coversHost hostname then .ok true else anyCovers hostname port rest
      | .ok false => anyCovers hostname port rest

/-- The entries of a list, in lower case: they stand between commas and blanks. -/
def entries (list : String) : List (List Char) :=
  (wordsFrom [] (list.toList.map fun c => if c = ',' then ' ' else c)).map Url.lowerChars

/-- The list names the host. -/
def excepts (list hostname : String) (port : Int) : Except Failure Bool :=
  anyCovers hostname.toList port (entries list)

/-! ### Configuration -/

/-- The schemes that may have a proxy of their own, with their ports. -/
def defaultPorts : List (String × Nat) := [("http", 80), ("https", 443)]

/-- A variable in lower case, or else in upper case. -/
def named? (h : Host) (name : String) : Option String :=
  h.firstSet? [name.toLower, name.toUpper]

/-- The first of two variables that is set. -/
def eitherVariable? (h : Host) (first second : String) : Option String :=
  (named? h first).or (named? h second)

/-- The proxy for all schemes without one of their own. -/
def fallback? (h : Host) : Option String := eitherVariable? h "npm_config_proxy" "all_proxy"

/-- The proxy that the environment names for a scheme. -/
def ofScheme? (h : Host) (scheme : String) : Option String :=
  eitherVariable? h s!"npm_config_{scheme}_proxy" s!"{scheme}_proxy"

/-- The proxies that the environment names, by scheme. -/
def configured (h : Host) : List (String × String) :=
  ((defaultPorts.map (·.1)).filterMap fun scheme => (ofScheme? h scheme).map (scheme, ·)) ++
    ((fallback? h).map ("all", ·)).toList

/-- The list of exceptions. -/
def exceptions? (h : Host) : Option String :=
  eitherVariable? h "npm_config_no_proxy" "no_proxy"

/-! ### Choice -/

/-- What is decided for a URL. -/
inductive Choice where
  | direct
  | excepted (hostname : String)
  | through (proxy : String)
  deriving DecidableEq

/-- The mark that follows a scheme occurs in the text. -/
def hasScheme (proxy : String) : Bool := occurs "://".toList proxy.toList

/-- A proxy without a scheme gets that of the URL. -/
def completed (scheme proxy : String) : String :=
  if hasScheme proxy then proxy else s!"{scheme}://{proxy}"

/-- The proxy for a scheme, where no exception holds. -/
def ofConfigured (h : Host) (scheme : String) : Choice :=
  let proxies := configured h
  match (proxies.lookup scheme).or (proxies.lookup "all") with
  | some proxy => .through (completed scheme proxy)
  | none => .direct

/-- The proxy of a URL. -/
def choose (h : Host) (url : String) : Except Failure Choice :=
  match Url.ofText url with
  | .error f => .error f
  | .ok u =>
    let scheme := String.ofList u.scheme
    let hostname := String.ofList (Url.lowerChars (u.hostname?.getD []))
    if scheme.isEmpty || hostname.isEmpty then .ok .direct
    else match u.port? with
      | .error f => .error f
      | .ok port? =>
        let port :=
          match port?.filter (· != 0) with
          | some n => n
          | none => (defaultPorts.lookup scheme).getD 0
        match exceptions? h with
        | none => .ok (ofConfigured h scheme)
        | some list =>
          match excepts list hostname port with
          | .error f => .error f
          | .ok true => .ok (.excepted hostname)
          | .ok false => .ok (ofConfigured h scheme)

/-! ### In the journal -/

/-- A proxy with its password masked. -/
def redacted (proxy : String) : Except Failure String :=
  if proxy.isEmpty then .ok proxy
  else match Url.ofText proxy with
    | .error f => .error f
    | .ok u =>
      match u.password? with
      | none => .ok proxy
      | some _ =>
        match u.port? with
        | .error f => .error f
        | .ok port? =>
          let host := (u.hostname?.getD "None".toList)
          let port :=
            match port?.filter (· != 0) with
            | some n => ':' :: (toString n).toList
            | none => []
          .ok ({ u with
            authority := u.user?.getD [] ++ ":***@".toList ++ host ++ port } : Url).text

/-- The proxy of a URL as a step of a run; an exception is noted in the journal. -/
def forUrl (h : Host) (url : String) : Session (Option String) := do
  match ← Session.give (choose h url) with
  | .direct => return none
  | .through proxy => return some proxy
  | .excepted hostname =>
    Session.log .debug .download s!"{hostname} bypasses proxy (no_proxy)"
    return none

/-- The proxy that the options name, or else the one of the URL. -/
def forRequest (h : Host) (url : String) (o : Options) : Session (Option String) :=
  match o.proxy.filter (· != "") with
  | some proxy => return some proxy
  | none => forUrl h url

end ReleaseFetch.Proxy
