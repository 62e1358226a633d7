/-
**Downloading through the shell.**

The command is started once.  If it cannot be started, or ends with a code other than zero, what it
left at the destination is removed.

Main definitions:

* `ReleaseFetch.Shell.job` — what the script for a download has to say;
* `ReleaseFetch.Shell.command` — the command;
* `ReleaseFetch.Shell.download` — the download.
-/

import ReleaseFetch.Files
import ReleaseFetch.Http.Proxy
import ReleaseFetch.Transfer.Script

set_option autoImplicit false

namespace ReleaseFetch.Shell

open Session

/-- The name of the shell. -/
def defaultExecutable : String := "powershell"

/-- What the script for a download has to say. -/
def job (h : Host) (url : String) (destination : Path) (o : Options) : Session Script.Job := do
  let headers ← give (o.headers.scopedTo url o.trustedHost)
  let proxy ← Proxy.forRequest h url o
  let credential ← match proxy with
    | some p => give (Script.credentialOf p)
    | none => pure none
  return ⟨url, destination.text, Script.tableHeaders headers, Script.agentOf headers, proxy,
    credential⟩

/-- The command that runs a script. -/
def command (executable : String) (j : Script.Job) : List String :=
  [executable, "-NoProfile", "-NonInteractive", "-Command", j.render]

/-- Downloads a URL to a file. -/
def download (h : Host) (executable url : String) (destination : Path) (o : Options) :
    Session Unit := do
  Files.ensureDirectory destination.parent
  log .info .download "Downloading with Invoke-WebRequest"
  let j ← job h url destination o
  match ← attempt (execute (command executable j)) with
  | .error f =>
    if f.isSystem then
      let _ ← Files.discard destination
      fail (.transport s!"Failed to run {executable}: {f.message}")
    else throw f
  | .ok (code, stderr) =>
    if code != 0 then
      let _ ← Files.discard destination
      fail (.commandFailed code stderr)
    else log .info .download s!"Download complete: {destination.text}"

end ReleaseFetch.Shell
