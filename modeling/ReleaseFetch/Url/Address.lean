/-
**Addresses in brackets.**

A host in square brackets has to be an address of the sixth version of the internet protocol, with
an optional zone after a percent sign, or an address of a version to come, which starts with `v`.

Main definitions:

* `ReleaseFetch.Url.isIpv4`, `ReleaseFetch.Url.isIpv6` — the two address forms;
* `ReleaseFetch.Url.bracketFault?` — why a host may not stand in brackets.
-/

import ReleaseFetch.Failure

set_option autoImplicit false

namespace ReleaseFetch.Url

open Text

/-- The characters are digits `0` to `9`, at least one. -/
def isNumber (cs : List Char) : Bool := !cs.isEmpty && cs.all fun c => '0' ≤ c && c ≤ '9'

/-- The value of digits `0` to `9`. -/
def numberValue (cs : List Char) : Nat := cs.foldl (fun n c => n * 10 + (c.toNat - 48)) 0

/-- A number up to 255 without a superfluous zero. -/
def isOctet (cs : List Char) : Bool :=
  isNumber cs && cs.length ≤ 3 && (cs == ['0'] || cs.head? != some '0') && numberValue cs ≤ 255

/-- Four octets between dots. -/
def isIpv4 (cs : List Char) : Bool :=
  let parts := pieces '.' cs
  parts.length == 4 && parts.all isOctet

/-- A hexadecimal digit of either case. -/
def isHexDigit (c : Char) : Bool :=
  ('0' ≤ c && c ≤ '9') || ('a' ≤ c && c ≤ 'f') || ('A' ≤ c && c ≤ 'F')

/-- One to four hexadecimal digits. -/
def isGroup (cs : List Char) : Bool := !cs.isEmpty && cs.length ≤ 4 && cs.all isHexDigit

/-- The parts of an address, where four octets at the end count as two groups. -/
def ipv6Parts (cs : List Char) : Option (List (List Char)) :=
  let parts := pieces ':' cs
  match parts.getLast? with
  | some final =>
    if final.contains '.' then
      if isIpv4 final then some (parts.dropLast ++ [['0'], ['0']]) else none
    else some parts
  | none => none

/-- The groups on one side of a double colon: the side may be empty. -/
def sideGroups (parts : List (List Char)) : List (List Char) :=
  if parts == [[]] then [] else parts

/-- Eight groups between colons, or fewer with one double colon. -/
def isIpv6Body (cs : List Char) : Bool :=
  (pieces ':' cs).length ≥ 3 &&
  match ipv6Parts cs with
  | none => false
  | some parts =>
    match ((parts.drop 1).dropLast).findIdx? (·.isEmpty) with
    | none => parts.length == 8 && parts.all isGroup
    | some i =>
      let groups := sideGroups (parts.take (i + 1)) ++ sideGroups (parts.drop (i + 2))
      groups.length ≤ 7 && groups.all isGroup

/-- An address of the sixth version, with an optional zone. -/
def isIpv6 (cs : List Char) : Bool :=
  match cutFirst? '%' cs with
  | none => isIpv6Body cs
  | some (body, zone) => !zone.isEmpty && !zone.contains '%' && isIpv6Body body

/-- An address of a version to come: `v`, hexadecimal digits, a dot and something more. -/
def isFutureAddress (cs : List Char) : Bool :=
  match cs with
  | 'v' :: rest =>
    let after := rest.dropWhile isHexDigit
    !(rest.takeWhile isHexDigit).isEmpty && after.head? == some '.' && after.length ≥ 2
  | _ => false

/-- Why a host may not stand in brackets. -/
def bracketFault? (host : List Char) : Option String :=
  if host.head? == some 'v' then
    if isFutureAddress host then none else some "IPvFuture address is invalid"
  else if isIpv4 host then some "An IPv4 address cannot be in brackets"
  else if isIpv6 host then none
  else some s!"{quoted (String.ofList host)} does not appear to be an IPv4 or IPv6 address"

end ReleaseFetch.Url
