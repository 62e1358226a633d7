/-
**The configuration of an installer.**

A configuration says which tool is installed from which releases, and where its files go.  Every
part of it has a default, and a directory that is not named is found from the site: the place of
the package and the directory for temporary files.

Main definitions:

* `ReleaseFetch.Site` — where a machine keeps its directories;
* `ReleaseFetch.Config`, `ReleaseFetch.Config.standard` — the configurations, and the default one;
* `ReleaseFetch.Config.cachePath`, `ReleaseFetch.Config.binaryPath` — the cache directory and the
  installed binary;
* `ReleaseFetch.Config.shown` — a configuration as the journal shows it;
* `ReleaseFetch.Host.token?` — the credential for the release interface.
-/

import ReleaseFetch.Host
import ReleaseFetch.Number.Numeral
import ReleaseFetch.Target
import ReleaseFetch.Transfer.Transport

set_option autoImplicit false

namespace ReleaseFetch

/-! ### The site -/

/-- Where a machine keeps its directories: the home of each user, the nameless one being the
current user, the directory for temporary files, and the place of the package. -/
structure Site where
  home? : String → Option String
  temporary : Path
  packageRoot : Path

/-- The version of the package. -/
def packageVersion : String := "0.4.3"

/-- The directory for binaries unless another is named. -/
def Site.binDirectory (s : Site) : Path := s.packageRoot.child "bin"

/-- The cache directory of a tool, one for every version of the package. -/
def cacheDirectory (base : Path) (tool version : String) : Path :=
  base.child s!"{tool}-cache-{version}"

/-! ### Configurations -/

/-- What an installer works with. -/
structure Config where
  toolName : String
  repo : String
  version : String
  apiHost : String
  userAgent : String
  binDir : Path
  cacheDir : Option Path
  maxRedirects : Int
  timeout : Option Seconds
  deriving DecidableEq

namespace Config

/-- The default configuration. -/
def standard (s : Site) : Config where
  toolName := "aidbox-cli"
  repo := "octoshikari/aidbox-cli"
  version := "v0.4.3"
  apiHost := defaultTrustedHost
  userAgent := "aidbox-cli"
  binDir := s.binDirectory
  cacheDir := none
  maxRedirects := Transport.defaultRedirectLimit
  timeout := none

/-- The cache directory: the one that is named, or else one among the temporary files. -/
def cachePath (c : Config) (s : Site) : Path :=
  c.cacheDir.getD (cacheDirectory s.temporary c.toolName packageVersion)

/-- Where the binary is installed on a host. -/
def binaryPath (c : Config) (h : Host) : Path := c.binDir.child (c.toolName ++ h.extension)

/-- A part that may be missing, as it is shown. -/
def shownOr {α : Type} (f : α → String) : Option α → String
  | some a => f a
  | none => "None"

/-- The configuration can be written: its count is not too long. -/
def isWritable (c : Config) : Bool := Numeral.isWritable c.maxRedirects

/-- The configuration as the journal shows it. -/
def shown (c : Config) : String :=
  s!"InstallerConfig(tool_name={Text.quoted c.toolName}, repo={Text.quoted c.repo}, " ++
    s!"version={Text.quoted c.version}, api_host={Text.quoted c.apiHost}, " ++
    s!"user_agent={Text.quoted c.userAgent}, bin_dir={c.binDir.shown}, " ++
    s!"cache_dir={shownOr Path.shown c.cacheDir}, max_redirects={c.maxRedirects}, " ++
    s!"timeout={shownOr Seconds.text c.timeout})"

end Config

/-! ### The credential -/

/-- The variable that holds the credential. -/
def tokenVariable : String := "GITHUB_TOKEN"

/-- The credential for the release interface, unless it is empty. -/
def Host.token? (h : Host) : Option String := h.nonEmpty? tokenVariable

end ReleaseFetch
