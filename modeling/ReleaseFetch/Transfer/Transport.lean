/-
**The way a download takes.**

Windows hosts leave downloads to the shell, which releases the file before it is copied; all other
hosts stream them.

Main definitions:

* `ReleaseFetch.Transport` — the two ways;
* `ReleaseFetch.Transport.forHost` — the way of a host;
* `ReleaseFetch.Transport.download`, `ReleaseFetch.Transport.fetch` — a download, silent and noted
  in the journal.
-/

import ReleaseFetch.Transfer.Shell
import ReleaseFetch.Transfer.Stream

set_option autoImplicit false

namespace ReleaseFetch

/-- A way to download. -/
inductive Transport where
  | stream (host : Host) (client : Client) (redirectLimit : Int)
  | shell (host : Host) (executable : String)
  deriving DecidableEq

namespace Transport

open Session

/-- The number of redirects that are followed unless another is named. -/
def defaultRedirectLimit : Int := 5

/-- The way of a host. -/
def forHost (h : Host) (client : Client) (redirectLimit : Int) : Transport :=
  if h.isWindows then .shell h Shell.defaultExecutable else .stream h client redirectLimit

/-- The name of a way. -/
def name : Transport → String
  | .stream .. => "stream"
  | .shell .. => "powershell"

/-- The number of redirects that a way follows, if it follows them itself. -/
def redirectLimit? : Transport → Option Int
  | .stream _ _ limit => some limit
  | .shell .. => none

/-- Downloads a URL to a file. -/
def download (t : Transport) (url : String) (destination : Path) (o : Options) : Session Unit :=
  match t with
  | .stream h client limit => Stream.download client h limit url destination o
  | .shell h executable => Shell.download h executable url destination o

/-- Downloads a URL to a file, and says so first.  `shownAs` is the destination as it was
named. -/
def fetch (t : Transport) (url shownAs : String) (destination : Path) (o : Options) :
    Session Unit := do
  log .info .download s!"Downloading from {url}"
  log .info .download s!"Downloading to {shownAs}"
  t.download url destination o

end Transport

end ReleaseFetch
