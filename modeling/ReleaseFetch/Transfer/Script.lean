/-
**The download script.**

On Windows a download is left to the shell.  All that goes into its script from outside is put
between single quotes, with every single quote inside written twice, so it can never be read as
code.

Main definitions:

* `ReleaseFetch.Script.quote` — a text as a literal of the shell;
* `ReleaseFetch.Script.Job` — what a script has to say, with `Job.ofHeaders`;
* `ReleaseFetch.Script.Credential` — the user and the password of a proxy;
* `ReleaseFetch.Script.Job.render` — the script.
-/

import ReleaseFetch.Http.Headers
import ReleaseFetch.Url.Percent

set_option autoImplicit false

namespace ReleaseFetch.Script

/-! ### Literals -/

/-- The characters of a literal, without its outer quotes. -/
def doubled (cs : List Char) : List Char :=
  cs.flatMap fun c => if c = '\'' then ['\'', '\''] else [c]

/-- A text as a literal. -/
def quote (s : String) : String := String.ofList ('\'' :: doubled s.toList ++ ['\''])

/-! ### Credentials -/

/-- The user and the password of a proxy. -/
structure Credential where
  user : String
  password : String
  deriving DecidableEq

/-- The credential that a proxy carries, escapes taken out; both parts have to be there. -/
def credentialOf (proxy : String) : Except Failure (Option Credential) :=
  match Url.ofText proxy with
  | .error f => .error f
  | .ok u =>
    match u.user?, u.password? with
    | some user, some password =>
      if user.isEmpty || password.isEmpty then .ok none
      else .ok (some ⟨String.ofList (Url.unescape user), String.ofList (Url.unescape password)⟩)
    | _, _ => .ok none

/-- The argument that hands a credential over. -/
def Credential.argument (c : Credential) : String :=
  s!" -ProxyCredential (New-Object PSCredential ({quote c.user}, " ++
    s!"(ConvertTo-SecureString {quote c.password} -AsPlainText -Force)))"

/-! ### The script -/

/-- What a script has to say. -/
structure Job where
  url : String
  destination : String
  headers : Headers
  userAgent : Option String
  proxy : Option String
  credential : Option Credential
  deriving DecidableEq

/-- The table of headers. -/
def headerTable (hs : Headers) : String :=
  "@\x7b" ++ Text.join "; " (hs.map fun (name, value) => quote name ++ "=" ++ quote value) ++ "\x7d"

/-- The name of the program that asks, taken from the headers: of several the last. -/
def agentOf (hs : Headers) : Option String :=
  ((hs.filter fun h => Headers.isUserAgent h.1).getLast?).map (·.2)

/-- The headers that go into the table. -/
def tableHeaders (hs : Headers) : Headers := hs.filter fun h => !Headers.isUserAgent h.1

/-- An argument that is left out if there is nothing to say. -/
def optional (name : String) : Option String → String
  | some value => if value.isEmpty then "" else s!" -{name} {quote value}"
  | none => ""

/-- The script. -/
def Job.render (j : Job) : String :=
  "[Net.ServicePointManager]::SecurityProtocol = [Net.SecurityProtocolType]::Tls12; " ++
    s!"Invoke-WebRequest -URI {quote j.url} -UseBasicParsing -OutFile {quote j.destination} " ++
    s!"-Headers {headerTable j.headers}" ++ optional "UserAgent" j.userAgent ++
    optional "Proxy" j.proxy ++ ((j.credential.map Credential.argument).getD "")

end ReleaseFetch.Script
