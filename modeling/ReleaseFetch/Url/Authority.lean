/-
**User, password, host and port.**

An authority is read from its ends: the user stands before the last `@`, the host after it, in
brackets or up to the first colon, and the port after that.

Main definitions:

* `ReleaseFetch.Url.user?`, `ReleaseFetch.Url.password?`, `ReleaseFetch.Url.hostname?`,
  `ReleaseFetch.Url.port?`.
-/

import ReleaseFetch.Number.Numeral
import ReleaseFetch.Url.Basic

set_option autoImplicit false

namespace ReleaseFetch.Url

open Text

/-- The user and, after a colon, the password. -/
def userInfo? (u : Url) : Option (List Char × Option (List Char)) :=
  (cutLast? '@' u.authority).map fun (info, _) =>
    match cutFirst? ':' info with
    | some (user, password) => (user, some password)
    | none => (info, none)

/-- The user of a URL. -/
def user? (u : Url) : Option (List Char) := u.userInfo?.map (·.1)

/-- The password of a URL. -/
def password? (u : Url) : Option (List Char) := u.userInfo?.bind (·.2)

/-- The host and the text of the port. -/
def hostInfo (u : Url) : List Char × List Char :=
  let info := hostAndPort u.authority
  match cutFirst? '[' info with
  | some (_, inside) =>
    let (host, after) := cutOff ']' inside
    (host, (cutOff ':' after).2)
  | none => cutOff ':' info

/-- The characters in lower case. -/
def lowerChars (cs : List Char) : List Char := lowerFrom [] cs

/-- The host in lower case, a zone excepted; `none` for an empty one. -/
def hostname? (u : Url) : Option (List Char) :=
  let host := u.hostInfo.1
  if host.isEmpty then none
  else match cutFirst? '%' host with
    | some (name, zone) => some (lowerChars name ++ '%' :: zone)
    | none => some (lowerChars host)

/-- The greatest port. -/
def portLimit : Nat := 65535

/-- The port; a text that is no port is an error. -/
def port? (u : Url) : Except Failure (Option Nat) :=
  let digits := u.hostInfo.2
  if digits.isEmpty then .ok none
  else if !isNumber digits then
    .error (.badValue s!"Port could not be cast to integer value as {quoted (String.ofList digits)}")
  else if digits.length > Numeral.digitLimit then
    .error (.badValue (Numeral.limitText digits.length))
  else if numberValue digits ≤ portLimit then .ok (some (numberValue digits))
  else .error (.badValue "Port out of range 0-65535")

/-- The host that a text names, in lower case; empty if it names none. -/
def hostOf (s : String) : Except Failure String :=
  match ofText s with
  | .error f => .error f
  | .ok u => .ok (String.ofList (lowerChars (u.hostname?.getD [])))

end ReleaseFetch.Url
