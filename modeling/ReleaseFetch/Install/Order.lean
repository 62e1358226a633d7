/-
**What is to be installed.**

An order names a release and a target, and the directory that the binary goes into.  It may ask for
a fresh download, and it may carry a credential, which is never shown.

Main definitions:

* `ReleaseFetch.Order`, `ReleaseFetch.Order.check`, `ReleaseFetch.Order.shown`.
-/

import ReleaseFetch.Failure

set_option autoImplicit false

namespace ReleaseFetch

/-- A release and a target to install. -/
structure Order where
  version : String
  target : String
  destination : Path
  force : Bool
  token : Option String
  deriving DecidableEq

namespace Order

/-- An order has to name a version and a target. -/
def check (o : Order) : Except Problem Unit :=
  if o.version.isEmpty then .error (.missingField "version")
  else if o.target.isEmpty then .error (.missingField "target")
  else .ok ()

/-- The order as it is shown, without its credential. -/
def shown (o : Order) : String :=
  let force := if o.force then "True" else "False"
  s!"InstallRequest(version={Text.quoted o.version}, target={Text.quoted o.target}, " ++
    s!"dest_dir={o.destination.shown}, force={force})"

end Order

end ReleaseFetch
