/-
**Installing a binary.**

An asset is a bare executable, so it is installed by copying it from the cache to its destination
and letting everybody run it.  An asset that cannot be installed is taken out of the cache.

Main definitions:

* `ReleaseFetch.Installer.place` — the copy of an asset at its destination;
* `ReleaseFetch.Installer.install` — the installation of an order.
-/

import ReleaseFetch.Install.Cache

set_option autoImplicit false

namespace ReleaseFetch.Installer

open Session

/-- The name that an asset is installed under. -/
def installedName (i : Installer) : String :=
  if i.host.isWindows then i.config.toolName ++ windowsExtension else i.config.toolName

/-- Copies an asset to its destination, and finds the binary there. -/
def extract (i : Installer) (asset destination : Path) : Session Path := do
  Files.copyExecutable asset (destination.child i.installedName)
  match ← Files.findBinary destination i.config.toolName with
  | some binary => return binary
  | none => fail (.binaryNotFound destination.text i.config.toolName)

/-- Copies an asset to its destination, and lets everybody run it.  On Windows no mode is set. -/
def place (i : Installer) (asset destination : Path) : Session Path := do
  let binary ← i.extract asset destination
  if !i.host.isWindows then Files.makeExecutable binary
  return binary

/-- Installs an order.  An interrupt leaves the cache as it is; every other failure to place the
asset takes it out of the cache. -/
def install (i : Installer) (o : Order) : Session Path := do
  give (o.check.mapError .problem)
  Files.ensureDirectory o.destination
  let asset ← i.obtain o
  log .info .installer s!"Extracting to {o.destination.text}"
  match ← attempt (i.place asset o.destination) with
  | .ok binary =>
    log .info .installer s!"Installed {i.config.toolName} to {binary.text}"
    return binary
  | .error f =>
    if !f.isInterrupt then
      log .info .installer "Deleting invalid download"
      let _ ← i.invalidate o.version o.target
    throw f

end ReleaseFetch.Installer
