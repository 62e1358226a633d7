/-
**What can go wrong.**

A failure is a cause, not a text.  The tool's own problems, from a missing field to a redirect
chain that is too long, are kept apart from what the operating system, the network or a malformed
value reports, because callers treat them differently: a problem ends a command with a short
message, and an interrupt is never handled.

Main definitions:

* `ReleaseFetch.Problem` — the tool's own problems, with `Problem.message` and `Problem.area`;
* `ReleaseFetch.Errno`, `ReleaseFetch.SystemFault` — what the operating system reports;
* `ReleaseFetch.Failure` — everything that can end an operation, with `Failure.message`;
* `ReleaseFetch.Failure.isNetwork`, `ReleaseFetch.Failure.isSystem`,
  `ReleaseFetch.Failure.isInterrupt` — the groups that handlers tell apart.
-/

import ReleaseFetch.Path
import ReleaseFetch.Text.Blank
import ReleaseFetch.Text.Utf8

set_option autoImplicit false

namespace ReleaseFetch

/-! ### Problems of the tool -/

/-- The areas that problems belong to. -/
inductive Area where
  | general
  | release
  | transport
  | install
  deriving DecidableEq

/-- The tool's own problems. -/
inductive Problem where
  | general (text : String)
  | config (text : String)
  | missingField (field : String)
  | unsupportedPlatform (os : String)
  | release (text : String)
  | malformedResponse (text : String)
  | badResponse (text : String)
  | assetNotFound (asset : String)
  | transport (text : String)
  | httpStatus (status : Int) (url : String)
  | downloadFailed (status : Int) (url : String)
  | tooManyRedirects (url : String) (limit : Int)
  | commandFailed (code : Int) (stderr : String)
  | install (text : String)
  | filesystem (text : String)
  | binaryNotFound (directory : String) (binary : String)
  deriving DecidableEq

/-- The area of a problem. -/
def Problem.area : Problem → Area
  | .general _ | .config _ | .missingField _ | .unsupportedPlatform _ => .general
  | .release _ | .malformedResponse _ | .badResponse _ | .assetNotFound _ => .release
  | .transport _ | .httpStatus .. | .downloadFailed .. | .tooManyRedirects .. | .commandFailed .. =>
    .transport
  | .install _ | .filesystem _ | .binaryNotFound .. => .install

/-- The words for a problem. -/
def Problem.message : Problem → String
  | .general text | .config text | .release text | .malformedResponse text | .badResponse text
  | .transport text | .install text | .filesystem text => text
  | .missingField field => s!"Missing {field}"
  | .unsupportedPlatform os => s!"Unknown platform: {os}"
  | .assetNotFound asset => s!"Asset not found with name: {asset}"
  | .httpStatus status _ => s!"Request failed: {status}"
  | .downloadFailed status _ => s!"Download failed with {status}"
  | .tooManyRedirects url limit => s!"Exceeded {limit} redirects while downloading {url}"
  | .commandFailed code stderr =>
    let said := Text.trim stderr
    let status := s!"Download command exited with status {code}"
    if said.isEmpty then status else s!"{status}: {said}"
  | .binaryNotFound directory binary =>
    s!"Expecting {binary} or {binary}.exe unzipped into {directory}, didn't find one."

/-! ### Faults of the system -/

/-- The error numbers that file operations meet. -/
inductive Errno where
  | noEntry
  | busy
  | exists
  | notDirectory
  | isDirectory
  | nameTooLong
  | loop
  deriving DecidableEq

/-- The number of an error. -/
def Errno.number : Errno → Nat
  | .noEntry => 2
  | .busy => 16
  | .exists => 17
  | .notDirectory => 20
  | .isDirectory => 21
  | .nameTooLong => 36
  | .loop => 40

/-- The words for an error. -/
def Errno.text : Errno → String
  | .noEntry => "No such file or directory"
  | .busy => "Device or resource busy"
  | .exists => "File exists"
  | .notDirectory => "Not a directory"
  | .isDirectory => "Is a directory"
  | .nameTooLong => "File name too long"
  | .loop => "Too many levels of symbolic links"

/-- An error of the operating system, with the paths it was about. -/
structure SystemFault where
  errno : Errno
  paths : List String
  deriving DecidableEq

/-- The words for a system fault. -/
def SystemFault.message (f : SystemFault) : String :=
  let head := s!"[Errno {f.errno.number}] {f.errno.text}"
  if f.paths.isEmpty then head
  else head ++ ": " ++ Text.join " -> " (f.paths.map Text.quoted)

/-! ### All failures -/

/-- What can go wrong with a request before there is a response, or while one is read. -/
inductive NetworkFault where
  | request
  | connection
  | timeout
  | chunk
  deriving DecidableEq

/-- What can be wrong with a value. -/
inductive ValueFault where
  | value
  | index
  | key
  | type
  | overflow
  | attribute
  | runtime
  | recursion
  | encoding
  deriving DecidableEq

/-- What ends an operation. -/
inductive Failure where
  | problem (p : Problem)
  | network (kind : NetworkFault) (text : String)
  | system (f : SystemFault)
  | device (text : String)
  | sameFile (source destination : Path)
  | encoding (f : Text.Utf8.Fault)
  | value (kind : ValueFault) (text : String)
  | interrupt
  deriving DecidableEq

namespace Failure

/-- The words for bytes that are no text. -/
def encodingText (f : Text.Utf8.Fault) : String :=
  let hex := String.ofList (Text.hexDigits 2 f.first.toNat)
  let place :=
    if f.length = 1 then s!"byte 0x{hex} in position {f.position}"
    else s!"bytes in position {f.position}-{f.position + f.length - 1}"
  s!"'utf-8' codec can't decode {place}: {f.reason.text}"

/-- The words for a failure. -/
def message : Failure → String
  | .problem p => p.message
  | .network _ text => text
  | .system f => f.message
  | .device text => text
  | .sameFile source destination => s!"{source.shown} and {destination.shown} are the same file"
  | .encoding f => encodingText f
  | .value _ text => text
  | .interrupt => ""

/-- The failure of a request. -/
def isNetwork : Failure → Bool
  | .network .. => true
  | _ => false

/-- A failure that the operating system reports; the network's count among them. -/
def isSystem : Failure → Bool
  | .network .. | .system _ | .device _ | .sameFile .. => true
  | _ => false

/-- The user asked to stop. -/
def isInterrupt : Failure → Bool
  | .interrupt => true
  | _ => false

/-- A value that cannot be used, with the reason. -/
def badValue (text : String) : Failure := .value .value text

end Failure

end ReleaseFetch
