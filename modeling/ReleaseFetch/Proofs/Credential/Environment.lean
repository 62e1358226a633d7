/-
**The variable of the credential.**

A run reads its environment by name, for the architecture, for the proxies and for the settings.
The variable that holds the credential is none of these, so two environments that differ in it lead
to the same target, the same proxies and the same configuration; an order that carries a credential
of its own is installed the same way.

Main definitions:

* `ReleaseFetch.Host.SameButToken` — environments that differ in the credential.

Main results:

* `ReleaseFetch.Proxy.choose_congr` — the proxy of a URL;
* `ReleaseFetch.Installer.install_congr` — an installation;
* `ReleaseFetch.CommandLine.context_congr` — the configuration of a command;
* `ReleaseFetch.CommandLine.perform_congr` — the commands that do not install.
-/

import ReleaseFetch.Proofs.Command.Offline

set_option autoImplicit false

namespace ReleaseFetch

open Session

/-! ### The host -/

/-- The hosts are the same but for the variable that holds the credential. -/
structure Host.SameButToken (h h' : Host) : Prop where
  os : h.os = h'.os
  machine : h.machine = h'.machine
  others : ∀ name, name ≠ tokenVariable → h.get? name = h'.get? name

namespace Host

variable {h h' : Host}

theorem SameButToken.nonEmpty? (hh : h.SameButToken h') {name : String}
    (hname : name ≠ tokenVariable) : h.nonEmpty? name = h'.nonEmpty? name := by
  rw [Host.nonEmpty?, Host.nonEmpty?, hh.others name hname]

theorem SameButToken.firstSet? (hh : h.SameButToken h') {names : List String}
    (hnames : tokenVariable ∉ names) : h.firstSet? names = h'.firstSet? names :=
  firstSet?_congr fun _ hname => hh.nonEmpty? fun heq => hnames (heq ▸ hname)

theorem SameButToken.isWindows (hh : h.SameButToken h') : h.isWindows = h'.isWindows := by
  rw [Host.isWindows, Host.isWindows, system, system, hh.os]

theorem SameButToken.extension (hh : h.SameButToken h') : h.extension = h'.extension := by
  rw [Host.extension, Host.extension, hh.isWindows]

theorem SameButToken.architecture (hh : h.SameButToken h') :
    h.architecture = h'.architecture := by
  rw [Host.architecture, Host.architecture, hh.machine, hh.firstSet? (by decide)]

theorem SameButToken.target (hh : h.SameButToken h') : h.target = h'.target := by
  rw [Host.target, Host.target, system, system, hh.os, hh.architecture]

/-- The same variable added to both leaves the difference as it is. -/
theorem SameButToken.withVariable (hh : h.SameButToken h') (name value : String) :
    (h.withVariable name value).SameButToken (h'.withVariable name value) := by
  refine ⟨hh.os, hh.machine, fun other hother => ?_⟩
  rw [get?_withVariable, get?_withVariable, hh.others other hother]

/-- Another variable than that of the credential leaves the credential as it is. -/
theorem token?_withVariable (h : Host) {name : String} (hname : tokenVariable ≠ name)
    (value : String) : (h.withVariable name value).token? = h.token? := by
  rw [token?, token?, Host.nonEmpty?, Host.nonEmpty?, get?_withVariable, if_neg hname]

end Host

/-! ### Proxies -/

namespace Proxy

variable {h h' : Host}

theorem eitherVariable?_congr (hh : h.SameButToken h') {first second : String}
    (hfirst : tokenVariable ∉ [first.toLower, first.toUpper])
    (hsecond : tokenVariable ∉ [second.toLower, second.toUpper]) :
    eitherVariable? h first second = eitherVariable? h' first second := by
  rw [eitherVariable?, eitherVariable?, named?, named?, named?, named?, hh.firstSet? hfirst,
    hh.firstSet? hsecond]

theorem configured_congr (hh : h.SameButToken h') : configured h = configured h' := by
  have hhttp : ofScheme? h "http" = ofScheme? h' "http" :=
    eitherVariable?_congr hh (by decide +kernel) (by decide +kernel)
  have hhttps : ofScheme? h "https" = ofScheme? h' "https" :=
    eitherVariable?_congr hh (by decide +kernel) (by decide +kernel)
  have hfallback : fallback? h = fallback? h' :=
    eitherVariable?_congr hh (by decide +kernel) (by decide +kernel)
  simp only [configured, defaultPorts, List.map_cons, List.map_nil, List.filterMap_cons,
    List.filterMap_nil, hhttp, hhttps, hfallback]

/-- **The proxy of a URL does not depend on the credential.** -/
theorem choose_congr (hh : h.SameButToken h') (url : String) : choose h url = choose h' url := by
  have hexceptions : exceptions? h = exceptions? h' :=
    eitherVariable?_congr hh (by decide +kernel) (by decide +kernel)
  simp only [choose, ofConfigured, configured_congr hh, hexceptions]

theorem forRequest_congr (hh : h.SameButToken h') (url : String) (o : Options) :
    forRequest h url o = forRequest h' url o := by
  rw [forRequest, forRequest, forUrl, forUrl, choose_congr hh]

end Proxy

/-! ### Downloads and installations -/

section Congruence

variable {h h' : Host}

theorem Stream.follow_congr (hh : h.SameButToken h') (c : Client) (o : Options)
    (destination : Path) (first : String) (limit : Int) (left : Nat) (url : String) :
    follow c h o destination first limit left url =
      follow c h' o destination first limit left url := by
  induction left generalizing url with
  | zero => rfl
  | succ left ih =>
      have hhop : hop c h o destination url = hop c h' o destination url := by
        rw [hop, hop, Proxy.forRequest_congr hh]
      simp only [follow, hhop, ih]

theorem Shell.download_congr (hh : h.SameButToken h') (executable url : String)
    (destination : Path) (o : Options) :
    download h executable url destination o = download h' executable url destination o := by
  rw [download, download, job, job, Proxy.forRequest_congr hh]

theorem Client.getText_congr (hh : h.SameButToken h') (c : Client) (url : String) (o : Options) :
    c.getText h url o = c.getText h' url o := by
  rw [getText, getText, Proxy.forRequest_congr hh]

theorem Transport.fetch_forHost_congr (hh : h.SameButToken h') (c : Client) (limit : Int)
    (url shownAs : String) (destination : Path) (o : Options) :
    (forHost h c limit).fetch url shownAs destination o =
      (forHost h' c limit).fetch url shownAs destination o := by
  unfold fetch forHost
  rw [hh.isWindows]
  cases h'.isWindows with
  | true => simp only [if_true, download, Shell.download_congr hh]
  | false => simp only [Bool.false_eq_true, if_false, download, Stream.download,
      Stream.follow_congr hh]

namespace Installer

/-- **An installation does not depend on the variable that holds the credential.** -/
theorem install_congr (hh : h.SameButToken h') (s : Site) (c : Config) (o : Order) :
    (ofConfig s c h).install o = (ofConfig s c h').install o := by
  have hname (version target : String) :
      (ofConfig s c h).assetName version target = (ofConfig s c h').assetName version target := by
    simp only [assetName, ofConfig, hh.extension]
  have hpath (version target : String) :
      (ofConfig s c h).assetPath version target = (ofConfig s c h').assetPath version target := by
    rw [assetPath, assetPath, hname]
    rfl
  have hquery : (ofConfig s c h).query o = (ofConfig s c h').query o := by
    rw [query, query, hname]
    rfl
  have hdownload : (ofConfig s c h).download o = (ofConfig s c h').download o := by
    unfold download
    rw [hquery, hpath]
    simp only [ofConfig, transport, Option.getD_none, Transport.fetch_forHost_congr hh,
      Release.locate, Client.getText_congr hh, assetOptions]
  have hobtain : (ofConfig s c h).obtain o = (ofConfig s c h').obtain o := by
    unfold obtain
    rw [hpath, hdownload]
    rfl
  have hplace (asset directory : Path) :
      (ofConfig s c h).place asset directory = (ofConfig s c h').place asset directory := by
    simp only [place, extract, installedName, ofConfig, hh.isWindows]
    rfl
  unfold install
  rw [hobtain]
  simp only [hplace, invalidate, hpath]
  rfl

end Installer

/-! ### Commands -/

namespace CommandLine

theorem withArchitecture_congr (hh : h.SameButToken h') (arch : Value) :
    (withArchitecture h arch).SameButToken (withArchitecture h' arch) := by
  unfold withArchitecture
  split
  · exact hh.withVariable _ _
  · exact hh

theorem token?_withArchitecture (h : Host) (arch : Value) :
    (withArchitecture h arch).token? = h.token? := by
  unfold withArchitecture
  split
  · exact h.token?_withVariable (by decide) _
  · rfl

/-- **The configuration of a command does not depend on the credential.** -/
theorem context_congr (hh : h.SameButToken h') (s : Site) (o : GeneralOptions) :
    context s h o = context s h' o := by
  have hactive : Settings.activeOverrides h = Settings.activeOverrides h' := by
    have hversion := hh.nonEmpty? (show "BINFETCH_VERSION" ≠ tokenVariable by decide)
    have hbin := hh.nonEmpty? (show "BINFETCH_BIN_DIR" ≠ tokenVariable by decide)
    have hcache := hh.nonEmpty? (show "BINFETCH_CACHE_DIR" ≠ tokenVariable by decide)
    simp only [Settings.activeOverrides, Settings.overrides, List.filterMap_cons,
      List.filterMap_nil, hversion, hbin, hcache]
  simp only [context, Settings.load, hactive]

theorem chosenTarget_congr (hh : h.SameButToken h') (target : Value) :
    chosenTarget h target = chosenTarget h' target := by
  rw [chosenTarget, chosenTarget, hh.target]

theorem performTarget_congr (hh : h.SameButToken h') (o : TargetOptions) :
    performTarget h o = performTarget h' o := by
  rw [performTarget, performTarget, (withArchitecture_congr hh o.arch).target]

theorem performPath_congr (hh : h.SameButToken h') (s : Site) (o : GeneralOptions) :
    performPath s h o = performPath s h' o := by
  simp only [performPath, context_congr hh, Config.binaryPath, hh.extension, hh.isWindows]

theorem performClean_congr (hh : h.SameButToken h') (s : Site) (o : GeneralOptions) :
    performClean s h o = performClean s h' o := by
  rw [performClean, performClean, context_congr hh]

/-- **A command that does not install does not depend on the credential.** -/
theorem perform_congr (hh : h.SameButToken h') (s : Site) (general : GeneralOptions) {c : Command}
    (hc : c.installs = false) : perform s h general c = perform s h' general c := by
  cases c with
  | install o => cases hc
  | target o => exact performTarget_congr hh o
  | path => exact performPath_congr hh s general
  | clean => exact performClean_congr hh s general

end CommandLine

end Congruence

end ReleaseFetch
