/-
**What a host decides.**

A host decides on the target of its release, on the suffix of its binaries and on the way of its
downloads.  All three go by the normal name of its system, so they agree on whether it is Windows;
the target goes by the normal name of its architecture besides.  A normal name is its own normal
name: a variable may hold the one or any text that stands for it.

Main definitions:

* `ReleaseFetch.Text.Trimmed` — a text without blanks at its ends.

Main results:

* `ReleaseFetch.Text.lower_trim_lower_trim` — a text that was trimmed and put in lower case stays as
  it is;
* `ReleaseFetch.normalArchitecture_normalArchitecture` — the normal name of a normal name;
* `ReleaseFetch.Host.target_cases` — a target of the list, or the system is refused;
* `ReleaseFetch.Host.decisions_agree` — what a host decides, and what it decides by.
-/

import Mathlib.Data.List.DropRight
import ReleaseFetch.Proofs.Text.Lowercase
import ReleaseFetch.Target
import ReleaseFetch.Transfer.Transport

set_option autoImplicit false

namespace ReleaseFetch

/-! ### Texts without blanks at their ends -/

namespace Text

variable {cs : List Char}

/-- Neither the first nor the last character is a blank. -/
structure Trimmed (cs : List Char) : Prop where
  first : ∀ c ∈ cs.head?, isBlank c = false
  last : ∀ c ∈ cs.getLast?, isBlank c = false

theorem toList_trim (s : String) :
    (trim s).toList = (s.toList.dropWhile isBlank).rdropWhile isBlank := by
  rw [trim, trimWhere, String.toList_ofList, List.rdropWhile]

theorem trimmed_trim (s : String) : Trimmed (trim s).toList := by
  rw [toList_trim]
  refine ⟨fun c hc => ?_, fun c hc => ?_⟩
  · -- what is dropped at the end leaves the first character alone
    have hfirst : c ∈ (s.toList.dropWhile isBlank).head? := by
      obtain ⟨more, hmore⟩ := List.rdropWhile_prefix isBlank (s.toList.dropWhile isBlank)
      rw [← hmore, List.head?_append, Option.mem_def.1 hc]
      rfl
    have hdrop := List.head?_dropWhile_not isBlank s.toList
    rw [Option.mem_def.1 hfirst] at hdrop
    simpa using hdrop
  · obtain ⟨hne, rfl⟩ := List.mem_getLast?_eq_getLast hc
    simpa using List.rdropWhile_last_not isBlank (s.toList.dropWhile isBlank) hne

theorem Trimmed.trim {s : String} (h : Trimmed s.toList) : trim s = s := by
  refine String.toList_inj.1 ?_
  have hfront : s.toList.dropWhile isBlank = s.toList := by
    cases hs : s.toList with
    | nil => rfl
    | cons c rest => exact List.dropWhile_cons_of_neg (by simp [h.first c (by rw [hs]; rfl)])
  rw [toList_trim, hfront, List.rdropWhile_eq_self_iff]
  intro hne
  simp [h.last _ (List.getLast?_eq_some_getLast hne)]

/-- Lower case makes no blanks at the ends of a text. -/
theorem Trimmed.lowerFrom (h : Trimmed cs) (b : List Char) : Trimmed (lowerFrom b cs) := by
  refine ⟨fun x hx => ?_, fun x hx => ?_⟩
  · cases cs with
    | nil => cases hx
    | cons c rest =>
        rw [lowerFrom_cons, List.head?_append_of_ne_nil _ (smallLetters_ne_nil b c rest)] at hx
        exact notBlank_smallLetters (h.first c rfl) b rest x (List.mem_of_head? hx)
  · rcases List.eq_nil_or_concat' cs with rfl | ⟨front, c, rfl⟩
    · cases hx
    · obtain ⟨more, hmore⟩ := lowerFrom_concat b front c
      rw [hmore, List.getLast?_append_of_ne_nil _ (smallLetters_ne_nil _ c [])] at hx
      refine notBlank_smallLetters (h.last c ?_) (front.reverse ++ b) [] x (List.mem_of_getLast? hx)
      exact List.getLast?_concat

/-- **A text that was trimmed and put in lower case stays as it is.** -/
theorem lower_trim_lower_trim (s : String) : lower (trim (lower (trim s))) = lower (trim s) := by
  have htrimmed : Trimmed (lower (trim s)).toList := by
    rw [lower, String.toList_ofList]
    exact (trimmed_trim s).lowerFrom []
  rw [htrimmed.trim]
  conv_lhs => rw [lower]
  rw [lower, String.toList_ofList, lowerFrom_lowerFrom]

end Text

/-! ### Names of architectures -/

/-- The normal name goes by what is left of a text that is trimmed and put in lower case. -/
theorem normalArchitecture_congr {a b : String}
    (h : Text.lower (Text.trim a) = Text.lower (Text.trim b)) :
    normalArchitecture a = normalArchitecture b := by
  rw [normalArchitecture, normalArchitecture, h]

/-- A normal name is one of five, or it is the text itself, trimmed and in lower case. -/
theorem normalArchitecture_cases (machine : String) :
    normalArchitecture machine ∈ ["x64", "arm64", "arm", "ppc64", "ia32"] ∨
      normalArchitecture machine = Text.lower (Text.trim machine) := by
  unfold normalArchitecture
  simp only
  split
  · exact .inl (by decide)
  · split
    · exact .inl (by decide)
    · split
      · exact .inl (by decide)
      · split
        · exact .inl (by decide)
        · split
          · exact .inl (by decide)
          · exact .inr rfl

/-- **A normal name is its own normal name.** -/
theorem normalArchitecture_normalArchitecture (machine : String) :
    normalArchitecture (normalArchitecture machine) = normalArchitecture machine := by
  rcases normalArchitecture_cases machine with hname | hname
  · have hall : ∀ name ∈ ["x64", "arm64", "arm", "ppc64", "ia32"], normalArchitecture name = name := by
      decide +kernel
    exact hall _ hname
  · rw [hname]
    refine (normalArchitecture_congr ?_).trans hname
    exact Text.lower_trim_lower_trim machine

/-- Only a text with something to it has a normal name. -/
theorem ne_empty_of_normalArchitecture {machine : String} (h : normalArchitecture machine ≠ "") :
    machine ≠ "" := by
  have hempty : normalArchitecture "" = "" := by decide +kernel
  rintro rfl
  exact h hempty

/-! ### Hosts -/

namespace Host

variable {h h' : Host}

/-- A target goes by the name of the system and the normal name of the architecture. -/
theorem target_congr (hos : h.os = h'.os) (harchitecture : h.architecture = h'.architecture) :
    h.target = h'.target := by
  rw [target, target, system, system, hos, harchitecture]

/-- The first variable that is set decides on the architecture, and without one the machine does. -/
theorem architecture_eq (h : Host) :
    h.architecture = normalArchitecture
      (((h.nonEmpty? "BINFETCH_ARCH").or (h.nonEmpty? "npm_config_arch")).getD h.machine) := by
  rw [architecture, firstSet?, architectureVariables, List.findSome?_cons, List.findSome?_cons]
  cases h.nonEmpty? "BINFETCH_ARCH" with
  | some v => rfl
  | none => cases h.nonEmpty? "npm_config_arch" <;> rfl

theorem os_withVariable (h : Host) (name value : String) : (h.withVariable name value).os = h.os := rfl

theorem nonEmpty?_withVariable (h : Host) (name : String) {value : String} (hvalue : value ≠ "") :
    (h.withVariable name value).nonEmpty? name = some value := by
  rw [nonEmpty?, get?_withVariable, if_pos rfl, Option.filter_some, if_pos (bne_iff_ne.2 hvalue)]

/-- The variable that counts most decides on the architecture, if it is set. -/
theorem architecture_withVariable (h : Host) {value : String} (hvalue : value ≠ "") :
    (h.withVariable "BINFETCH_ARCH" value).architecture = normalArchitecture value := by
  rw [architecture_eq, nonEmpty?_withVariable h _ hvalue]
  rfl

/-- **A host has a target of the list, or its system is refused.** -/
theorem target_cases (h : Host) :
    (∃ t ∈ supportedTargets, h.target = .ok t) ∨ h.target = .error (.unsupportedPlatform h.os) := by
  cases htarget : h.target with
  | ok t => exact .inl ⟨t, target_mem_supportedTargets htarget, rfl⟩
  | error p =>
      refine .inr ?_
      unfold target at htarget
      split at htarget
      · cases htarget
      · split at htarget
        · cases htarget
        · split at htarget
          · cases htarget
          · exact htarget.symm

/-- The target of Windows is that of Windows hosts only. -/
theorem target_eq_windows_iff : h.target = .ok "windows-x86_64" ↔ h.isWindows = true := by
  rw [isWindows, beq_iff_eq]
  unfold target
  have hlinux : ∀ t ∈ linuxTargets.map (·.2) ++ [linuxFallbackTarget], t ≠ "windows-x86_64" := by
    decide
  split
  · next hdarwin =>
    rw [hdarwin]
    split <;> decide
  · split
    · next hwindows => exact iff_of_true rfl hwindows
    · next hother =>
      refine iff_of_false ?_ hother
      split
      · exact fun heq => hlinux _ (linuxTarget_mem h.architecture) (Except.ok.inj heq)
      · exact nofun

theorem extension_eq_iff : h.extension = ".exe" ↔ h.isWindows = true := by
  unfold extension
  cases h.isWindows <;> decide

theorem forHost_eq_shell_iff (client : Client) (redirectLimit : Int) :
    (∃ executable, Transport.forHost h client redirectLimit = .shell h executable) ↔
      h.isWindows = true := by
  unfold Transport.forHost
  cases h.isWindows <;> simp

/-- Every target of the list is that of a host with normal names. -/
theorem exists_target : ∀ t ∈ supportedTargets, ∃ os ∈ ["darwin", "win32", "linux"],
    ∃ machine ∈ ["x64", "arm64", "arm", "ppc64", "ia32"], (Host.mk os machine []).target = .ok t := by
  decide +kernel

/-- **What a host decides.**  Its target is one of the list, or the system is refused by the name
that it has.  The target, the suffix of executables and the way of downloads agree on whether the
host is Windows.  The target goes by the name of the system and by the first variable for the
architecture that is not empty, or the machine where both are; a variable may hold the normal name
for any text.  And every target of the list is that of a host. -/
theorem decisions_agree (h : Host) (client : Client) (redirectLimit : Int) :
    ((∃ t ∈ supportedTargets, h.target = .ok t) ∨ h.target = .error (.unsupportedPlatform h.os)) ∧
      (h.target = .ok "windows-x86_64" ↔ h.isWindows = true) ∧
      (h.extension = ".exe" ↔ h.isWindows = true) ∧
      ((∃ executable, Transport.forHost h client redirectLimit = .shell h executable) ↔
        h.isWindows = true) ∧
      (∀ h' : Host, h'.os = h.os →
        (h'.nonEmpty? "BINFETCH_ARCH").or (h'.nonEmpty? "npm_config_arch") =
          (h.nonEmpty? "BINFETCH_ARCH").or (h.nonEmpty? "npm_config_arch") →
        ((h.nonEmpty? "BINFETCH_ARCH").or (h.nonEmpty? "npm_config_arch") = none →
          h'.machine = h.machine) →
        h'.target = h.target) ∧
      (∀ name : String, normalArchitecture name ≠ "" →
        (h.withVariable "BINFETCH_ARCH" (normalArchitecture name)).target =
          (h.withVariable "BINFETCH_ARCH" name).target) ∧
      ∀ t ∈ supportedTargets, ∃ h' : Host, h'.target = .ok t := by
  refine ⟨h.target_cases, target_eq_windows_iff, extension_eq_iff,
    forHost_eq_shell_iff client redirectLimit, ?_, ?_, ?_⟩
  · intro h' hos hvariables hmachine
    refine target_congr hos ?_
    rw [architecture_eq, architecture_eq, hvariables]
    cases hset : (h.nonEmpty? "BINFETCH_ARCH").or (h.nonEmpty? "npm_config_arch") with
    | some v => rfl
    | none => rw [hmachine hset]
  · intro name hnormal
    refine target_congr ((os_withVariable h _ _).trans (os_withVariable h _ _).symm) ?_
    rw [architecture_withVariable h hnormal,
      architecture_withVariable h (ne_empty_of_normalArchitecture hnormal),
      normalArchitecture_normalArchitecture]
  · intro t ht
    obtain ⟨os, -, machine, -, htarget⟩ := exists_target t ht
    exact ⟨_, htarget⟩

/-- An architecture in the first variable, and in the second one where the first is empty. -/
theorem decisions_agree_named :
    let h : Host := ⟨"Linux", "x86_64", [("BINFETCH_ARCH", " AArch64 ")]⟩
    let h' : Host := ⟨"Linux", "mips", [("BINFETCH_ARCH", ""), ("npm_config_arch", " AArch64 ")]⟩
    h.target = .ok "aarch64-unknown-linux-gnu" ∧ h'.target = h.target ∧
      (h.withVariable "BINFETCH_ARCH" (normalArchitecture "PPC64LE")).target =
        (h.withVariable "BINFETCH_ARCH" "PPC64LE").target := by
  intro h h'
  obtain ⟨-, -, -, -, hgoes, hnormal, -⟩ :=
    decisions_agree h Client.own Transport.defaultRedirectLimit
  have hset : (h.nonEmpty? "BINFETCH_ARCH").or (h.nonEmpty? "npm_config_arch") ≠ none := by decide
  exact ⟨by decide +kernel, hgoes h' rfl (by decide) fun hnone => absurd hnone hset,
    hnormal "PPC64LE" (by decide +kernel)⟩

end Host

end ReleaseFetch
