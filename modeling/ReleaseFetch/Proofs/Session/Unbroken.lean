/-
**Decisions that are no interrupt.**

What a run decides on its own may fail: a URL may be malformed, a port out of range, a listing too
deep, a path unusable.  None of these failures is an interrupt, for an interrupt comes from outside.

Main definitions:

* `ReleaseFetch.Unbroken` — a result that is no interrupt.

Main results:

* `ReleaseFetch.Url.ofTextWith_unbroken`, `ReleaseFetch.Url.join_unbroken` — URLs;
* `ReleaseFetch.Proxy.choose_unbroken`, `ReleaseFetch.Proxy.redacted_unbroken` — proxies;
* `ReleaseFetch.Release.ofText_unbroken` — listings;
* `ReleaseFetch.Disk.find_unbroken` — what the disk says of a path;
* `ReleaseFetch.Disk.unlink_unbroken`, `ReleaseFetch.Disk.copyFile_unbroken`,
  `ReleaseFetch.Disk.replace_unbroken` — changes of the disk.
-/

import ReleaseFetch.Release.Lookup
import ReleaseFetch.Transfer.Transport

set_option autoImplicit false

namespace ReleaseFetch

open Disk

/-! ### Results -/

section Results

variable {α β : Type}

/-- The result is no interrupt. -/
def Unbroken (r : Except Failure α) : Prop := ∀ f, r = .error f → f.isInterrupt = false

namespace Unbroken

theorem ok (a : α) : Unbroken (.ok a) := by
  intro f h
  cases h

theorem error {f : Failure} (hf : f.isInterrupt = false) : Unbroken (.error f : Except Failure α) := by
  intro g h
  obtain rfl := Except.error.inj h
  exact hf

theorem mapError {ε : Type} (r : Except ε α) {toFailure : ε → Failure}
    (h : ∀ e, (toFailure e).isInterrupt = false) : Unbroken (r.mapError toFailure) := by
  cases r with
  | ok a => exact ok a
  | error e => exact error (h e)

/-- A decision that is made of another one. -/
theorem bind {r : Except Failure α} {s : α → Except Failure β} (hr : Unbroken r)
    (hs : ∀ a, Unbroken (s a)) : Unbroken (r >>= s) := by
  cases r with
  | ok a => exact hs a
  | error f => exact error (hr f rfl)

end Unbroken

end Results

/-! ### URLs -/

namespace Url

theorem ofTextWith_unbroken (fallback : List Char) (s : String) :
    Unbroken (ofTextWith fallback s) := by
  unfold ofTextWith
  simp only
  split
  · exact .error rfl
  · split
    · exact .error rfl
    · exact .ok _

theorem ofText_unbroken (s : String) : Unbroken (ofText s) := ofTextWith_unbroken [] s

theorem port?_unbroken (u : Url) : Unbroken u.port? := by
  unfold port?
  simp only
  split
  · exact .ok _
  · split
    · exact .error rfl
    · split
      · exact .error rfl
      · split
        · exact .ok _
        · exact .error rfl

theorem hostOf_unbroken (s : String) : Unbroken (hostOf s) := by
  unfold hostOf
  split
  · next f h => exact .error (ofText_unbroken s f h)
  · exact .ok _

theorem join_unbroken (base location : String) : Unbroken (join base location) := by
  unfold join
  split
  · exact .ok _
  · split
    · exact .ok _
    · split
      · next f h => exact .error (ofText_unbroken base f h)
      · next b _ =>
        split
        · next f h => exact .error (ofTextWith_unbroken b.scheme location f h)
        · split
          · exact .ok _
          · split
            · exact .ok _
            · split
              · exact .ok _
              · exact .ok _

end Url

theorem Headers.scopedTo_unbroken (hs : Headers) (url trusted : String) :
    Unbroken (hs.scopedTo url trusted) := by
  unfold scopedTo
  split
  · next f h => exact .error (Url.hostOf_unbroken url f h)
  · exact .ok _

/-! ### Proxies -/

namespace Proxy

theorem coversPort_unbroken (e : Entry) (port : Int) : Unbroken (e.coversPort port) := by
  unfold Entry.coversPort
  split
  · exact .ok _
  · split
    · exact .ok _
    · exact .error rfl

theorem anyCovers_unbroken (hostname : List Char) (port : Int) (entries : List (List Char)) :
    Unbroken (anyCovers hostname port entries) := by
  induction entries with
  | nil => exact .ok _
  | cons cs rest ih =>
      unfold anyCovers
      simp only
      split
      · exact .ok _
      · split
        · next f h => exact .error (coversPort_unbroken _ port f h)
        · split
          · exact .ok _
          · exact ih
        · exact ih

theorem choose_unbroken (h : Host) (url : String) : Unbroken (choose h url) := by
  unfold choose
  split
  · next f hf => exact .error (Url.ofText_unbroken url f hf)
  · next u _ =>
    simp only
    split
    · exact .ok _
    · split
      · next f hf => exact .error (Url.port?_unbroken u f hf)
      · split
        · exact .ok _
        · next list _ =>
          split
          · next f hf => exact .error (anyCovers_unbroken _ _ (entries list) f hf)
          · exact .ok _
          · exact .ok _

theorem redacted_unbroken (proxy : String) : Unbroken (redacted proxy) := by
  unfold redacted
  split
  · exact .ok _
  · split
    · next f hf => exact .error (Url.ofText_unbroken proxy f hf)
    · next u _ =>
      split
      · exact .ok _
      · split
        · next f hf => exact .error (Url.port?_unbroken u f hf)
        · exact .ok _

end Proxy

theorem Script.credentialOf_unbroken (proxy : String) : Unbroken (credentialOf proxy) := by
  unfold credentialOf
  split
  · next f hf => exact .error (Url.ofText_unbroken proxy f hf)
  · split
    · split
      · exact .ok _
      · exact .ok _
    · exact .ok _

/-! ### Listings -/

theorem Release.ofText_unbroken (body : String) : Unbroken (Listing.ofText body) := by
  unfold Listing.ofText
  split
  · exact .error rfl
  · exact .ok _
  · exact .ok _

/-! ### The disk -/

namespace Disk

variable (d : Disk) (p : Path)

/-- What the disk says of a path is no interrupt. -/
theorem find_unbroken (follow : Bool) : Unbroken (d.find follow p) := by
  unfold find
  split
  · exact .error rfl
  · split
    · exact .ok _
    · exact .error rfl

theorem status_unbroken : Unbroken (d.status p) := by
  unfold status
  split
  · next f h => exact .error (find_unbroken d p true f h)
  · split
    · exact .ok _
    · exact .error rfl

theorem ask_unbroken (question : Option Entry → Bool) : Unbroken (d.ask p question) := by
  unfold ask
  split
  · exact .ok _
  · next f h =>
    split
    · exact .ok _
    · exact .error (status_unbroken d p f h)

theorem exists?_unbroken : Unbroken (d.exists? p) := ask_unbroken d p _

theorem isDirectory?_unbroken : Unbroken (d.isDirectory? p) := ask_unbroken d p _

theorem makeDirectory_unbroken : Unbroken (d.makeDirectory p) := by
  unfold makeDirectory
  split
  · next f h => exact .error (find_unbroken d p _ f h)
  · split
    · exact .ok _
    · exact .error rfl

theorem read_unbroken : Unbroken (d.read p) := by
  unfold read
  split
  · next f h => exact .error (find_unbroken d p _ f h)
  · split
    · exact .ok _
    · exact .error rfl
    · exact .error rfl

theorem write_unbroken (b : List UInt8) : Unbroken (d.write p b) := by
  unfold write
  split
  · next f h => exact .error (find_unbroken d p _ f h)
  · split
    · exact .ok _
    · exact .ok _
    · exact .error rfl

theorem copyFile_unbroken (q : Path) : Unbroken (d.copyFile p q) := by
  unfold copyFile
  split
  · exact .error rfl
  · split
    · exact .error rfl
    · split
      · next f h => exact .error (read_unbroken d p f h)
      · exact write_unbroken d q _

theorem setMode_unbroken (mode : Nat) : Unbroken (d.setMode p mode) := by
  unfold setMode
  split
  · next f h => exact .error (status_unbroken d p f h)
  · split
    · exact .ok _
    · exact .ok _

theorem unlink_unbroken : Unbroken (d.unlink p) := by
  unfold unlink
  split
  · next f h => exact .error (find_unbroken d p _ f h)
  · split
    · exact .error rfl
    · exact .error rfl
    · exact .ok _

theorem removeDirectory_unbroken : Unbroken (d.removeDirectory p) := by
  unfold removeDirectory
  split
  · next f h => exact .error (find_unbroken d p _ f h)
  · split
    · exact .error rfl
    · exact .ok _

theorem createNew_unbroken : Unbroken (d.createNew p) := by
  unfold createNew
  split
  · next f h => exact .error (find_unbroken d p _ f h)
  · split
    · exact .ok _
    · exact .ok _

theorem replace_unbroken (q : Path) : Unbroken (d.replace p q) := by
  unfold replace
  split
  · exact .error rfl
  · simp only
    split
    · exact .error rfl
    · exact .error rfl
    · split
      · exact .error rfl
      · split
        · exact .error rfl
        · split
          · exact .error rfl
          · exact .ok _

theorem resolve_unbroken : Unbroken (d.resolve p) := by
  unfold resolve
  split
  · exact .error rfl
  · simp only
    split
    · exact .error rfl
    · split
      · exact .error rfl
      · exact .ok _

theorem workingPath_unbroken : Unbroken d.workingPath := by
  unfold workingPath
  split
  · exact .ok _
  · exact .error rfl

end Disk

theorem Stream.partialDirectory_unbroken (d : Disk) (destination : Path) :
    Unbroken (partialDirectory d destination) := by
  unfold partialDirectory
  split
  · rcases h : d.workingPath with f | here
    · exact .error (workingPath_unbroken d f h)
    · exact .ok _
  · exact .ok _

end ReleaseFetch
