/-
**The cache of downloads.**

A downloaded asset is kept under its name in a cache directory, so that the same version and target
are downloaded once.  Whatever ends a download early, the asset is removed before the failure is
passed on, so nothing incomplete stays in the cache.

Main definitions:

* `ReleaseFetch.Installer` — a configuration on a host, with its way to download;
* `ReleaseFetch.Installer.assetName`, `ReleaseFetch.Installer.assetPath` — where an asset is kept;
* `ReleaseFetch.Installer.isCached`, `ReleaseFetch.Installer.invalidate` — one asset of the cache;
* `ReleaseFetch.Installer.obtain` — an asset from the cache, or from its release;
* `ReleaseFetch.Cache.clear` — the removal of a cache directory.
-/

import ReleaseFetch.Install.Order
import ReleaseFetch.Release.Lookup
import ReleaseFetch.Settings.Config
import ReleaseFetch.Transfer.Transport

set_option autoImplicit false

namespace ReleaseFetch

open Session

/-- A configuration on a host, with the cache directory, the sender of requests, and a way to
download unless that of the host is taken. -/
structure Installer where
  config : Config
  host : Host
  client : Client
  transport? : Option Transport
  cacheDir : Path

namespace Installer

/-- The installer of a configuration. -/
def ofConfig (s : Site) (c : Config) (h : Host) : Installer := ⟨c, h, .own, none, c.cachePath s⟩

/-! ### Assets of the cache -/

/-- The name of an asset. -/
def assetName (i : Installer) (version target : String) : String :=
  Text.join "-" [i.config.toolName, version, target] ++ i.host.extension

/-- Where an asset is kept. -/
def assetPath (i : Installer) (version target : String) : Path :=
  i.cacheDir.child (i.assetName version target)

/-- The cache holds the asset. -/
def isCached (i : Installer) (version target : String) : Session Bool :=
  look (·.exists? (i.assetPath version target))

/-- Removes an asset from the cache, and says whether it was there. -/
def invalidate (i : Installer) (version target : String) : Session Bool :=
  Files.discard (i.assetPath version target)

/-! ### Downloads -/

/-- The way to download. -/
def transport (i : Installer) : Transport :=
  i.transport?.getD (.forHost i.host i.client i.config.maxRedirects)

/-- What the release is asked for. -/
def query (i : Installer) (o : Order) : Release.Query :=
  ⟨i.config.repo, o.version, i.assetName o.version o.target, o.token, i.config.userAgent,
    i.config.apiHost, i.config.timeout⟩

/-- What an asset is asked for with. -/
def assetOptions (i : Installer) (o : Order) : Options :=
  Release.withToken
    ⟨[("user-agent", i.config.userAgent), ("accept", "application/octet-stream")], none,
      i.config.apiHost, i.config.timeout⟩
    o.token

/-- Finds the asset of an order and downloads it. -/
def download (i : Installer) (o : Order) : Session Unit := do
  let asset ← Release.locate i.client i.host (i.query o)
  let path := i.assetPath o.version o.target
  i.transport.fetch asset.url path.text path (i.assetOptions o)

/-- The asset of an order: the one in the cache, unless a fresh one is asked for, or else a
download. -/
def obtain (i : Installer) (o : Order) : Session Path := do
  let path := i.assetPath o.version o.target
  Files.ensureDirectory i.cacheDir
  let cached ← if o.force then pure false else look (·.exists? path)
  if cached then
    log .info .cache s!"Using cached download: {path.text}"
    return path
  match ← attempt (i.download o) with
  | .ok () => return path
  | .error f =>
    log .info .cache "Deleting invalid download cache"
    let _ ← Files.discard path
    throw f

end Installer

namespace Cache

/-- Removes a cache directory with all assets in it, and says whether it was there. -/
def clear (p : Path) : Session Bool := do
  if ← look (·.exists? p) then
    Files.removeTree p (some p.parent)
    log .info .directory s!"Removed cache directory {p.text}"
    return true
  else
    log .debug .directory s!"Cache directory does not exist: {p.text}"
    return false

end Cache

end ReleaseFetch
