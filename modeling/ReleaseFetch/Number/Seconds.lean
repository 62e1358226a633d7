/-
**A number of seconds.**

A timeout is a whole number or a double-precision one.  The two are written differently: a whole
number has no point.

Main definitions:

* `ReleaseFetch.Seconds`, `ReleaseFetch.Seconds.text`.
-/

import ReleaseFetch.Number.Shortest

set_option autoImplicit false

namespace ReleaseFetch

/-- A number of seconds. -/
inductive Seconds where
  | whole (n : Int)
  | real (x : Binary64)
  deriving DecidableEq

/-- The number written out. -/
def Seconds.text : Seconds → String
  | .whole n => toString n
  | .real x => x.text

end ReleaseFetch
