/-
**Targets.**

A target names the system and the architecture that a release asset was built for.  Every host of a
known operating system has one: architectures without an entry of their own fall back to the most
common one of their system.

Main definitions:

* `ReleaseFetch.Host.target` — the target of a host;
* `ReleaseFetch.Host.extension` — the suffix of executables;
* `ReleaseFetch.supportedTargets` — every target that there is.
-/

import ReleaseFetch.Failure
import ReleaseFetch.Host

set_option autoImplicit false

namespace ReleaseFetch

/-- The targets of Linux, by architecture. -/
def linuxTargets : List (String × String) :=
  [("x64", "linux-x86_64"), ("arm", "arm-unknown-linux-gnueabihf"),
   ("arm64", "aarch64-unknown-linux-gnu"), ("ppc64", "powerpc64le-unknown-linux-gnu")]

/-- The target of Linux on all other architectures. -/
def linuxFallbackTarget : String := "i686-unknown-linux-musl"

/-- The suffix of executables on Windows. -/
def windowsExtension : String := ".exe"

/-- The target of a host. -/
def Host.target (h : Host) : Except Problem String :=
  if h.system = "darwin" then
    .ok (if h.architecture = "x64" then "darwin-x86_64" else "darwin-m1")
  else if h.system = "win32" then .ok "windows-x86_64"
  else if h.system = "linux" then
    .ok ((linuxTargets.lookup h.architecture).getD linuxFallbackTarget)
  else .error (.unsupportedPlatform h.os)

/-- The suffix of executables. -/
def Host.extension (h : Host) : String := if h.isWindows then windowsExtension else ""

/-- Every target that there is. -/
def supportedTargets : List String :=
  ["darwin-x86_64", "darwin-m1", "windows-x86_64"] ++ linuxTargets.map (·.2) ++
    [linuxFallbackTarget]

theorem linuxTarget_mem (architecture : String) :
    (linuxTargets.lookup architecture).getD linuxFallbackTarget ∈
      linuxTargets.map (·.2) ++ [linuxFallbackTarget] := by
  cases hlookup : linuxTargets.lookup architecture with
  | none => simp
  | some t =>
      obtain ⟨before, after, hsplit, -⟩ := List.lookup_eq_some_iff.1 hlookup
      exact List.mem_append_left _ (List.mem_map.2 ⟨(architecture, t), by simp [hsplit], rfl⟩)

/-- Every host of a known system has a target of the list. -/
theorem target_mem_supportedTargets {h : Host} {t : String} (ht : h.target = .ok t) :
    t ∈ supportedTargets := by
  unfold Host.target at ht
  split at ht
  · obtain rfl := Except.ok.inj ht
    split <;> simp [supportedTargets]
  · split at ht
    · obtain rfl := Except.ok.inj ht
      simp [supportedTargets]
    · split at ht
      · obtain rfl := Except.ok.inj ht
        rw [supportedTargets, List.append_assoc]
        exact List.mem_append_right _ (linuxTarget_mem h.architecture)
      · simp at ht

end ReleaseFetch
