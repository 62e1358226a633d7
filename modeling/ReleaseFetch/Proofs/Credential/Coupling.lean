/-
**Two runs that differ in a credential.**

Two runs are alike while they differ in nothing but the value of a credential that was sent to the
trusted host.  That is one way in which requests and commands may differ, so the rules for coupled
steps apply.

Main definitions:

* `ReleaseFetch.Headers.Twin`, `ReleaseFetch.Request.Twin`, `ReleaseFetch.Exchange.Twin`,
  `ReleaseFetch.Shell.Twin` — headers, requests and commands that differ in a credential;
* `ReleaseFetch.World.Twin` — worlds that differ in credentials that were sent;
* `ReleaseFetch.Session.Alike` — steps that do the same to such worlds;
* `ReleaseFetch.Coupling.credentials` — the difference as a coupling.

Main results:

* `ReleaseFetch.World.twin_iff_coupled`, `ReleaseFetch.Session.alike_iff_coupled` — worlds and steps
  are alike if they are coupled by it.
-/

import ReleaseFetch.Proofs.Credential.Scope
import ReleaseFetch.Proofs.Session.Coupled

set_option autoImplicit false

namespace ReleaseFetch

/-! ### What differs -/

namespace Headers

/-- The headers have the same names, and the same values but for credentials. -/
def Twin (hs hs' : Headers) : Prop :=
  List.Forall₂ (fun x y => x.1 = y.1 ∧ (isCredential x.1 = false → x.2 = y.2)) hs hs'

theorem Twin.refl (hs : Headers) : Twin hs hs := List.forall₂_same.2 fun _ _ => ⟨rfl, fun _ => rfl⟩

/-- The headers for a URL are the same, or differ in credentials for the trusted host. -/
def Paired (trusted url : String) (hs hs' : Headers) : Prop :=
  hs = hs' ∨ Url.hostOf url = .ok (Text.lower trusted) ∧ Twin hs hs'

end Headers

/-- Two requests that differ at most in a credential for the trusted host. -/
structure Request.Twin (trusted : String) (q q' : Request) : Prop where
  url : q.url = q'.url
  headers : Headers.Paired trusted q.url q.headers q'.headers
  proxy : q.proxy = q'.proxy
  timeout : q.timeout = q'.timeout
  streamed : q.streamed = q'.streamed
  followsRedirects : q.followsRedirects = q'.followsRedirects
  trustsEnvironment : q.trustsEnvironment = q'.trustsEnvironment

/-- Two exchanges of such requests, of which the same became. -/
structure Exchange.Twin (trusted : String) (x y : Exchange) : Prop where
  request : x.request.Twin trusted y.request
  answered : x.answered = y.answered
  closed : x.closed = y.closed
  chunkSize : x.chunkSize = y.chunkSize

/-- Two commands whose scripts differ at most in a credential for the trusted host. -/
def Shell.Twin (trusted : String) (c c' : List String) : Prop :=
  c = c' ∨ ∃ executable j hs, c = Shell.command executable j ∧
    c' = Shell.command executable { j with headers := hs } ∧
    Url.hostOf j.url = .ok (Text.lower trusted) ∧ j.headers.Twin hs

/-- Two worlds that differ at most in credentials that were sent to the trusted host. -/
structure World.Twin (trusted : String) (w w' : World) : Prop where
  disk : w.disk = w'.disk
  answers : w.answers = w'.answers
  shellReplies : w.shellReplies = w'.shellReplies
  exchanges : List.Forall₂ (Exchange.Twin trusted) w.exchanges w'.exchanges
  commands : List.Forall₂ (Shell.Twin trusted) w.commands w'.commands
  journal : w.journal = w'.journal
  printed : w.printed = w'.printed

theorem Request.Twin.refl {trusted : String} (q : Request) : q.Twin trusted q :=
  ⟨rfl, .inl rfl, rfl, rfl, rfl, rfl, rfl⟩

/-! ### The difference as a coupling -/

/-- The requests and the commands of two runs may differ in a credential for the trusted host. -/
def Coupling.credentials (trusted : String) : Coupling := ⟨Request.Twin trusted, Shell.Twin trusted⟩

theorem Exchange.twin_iff_coupled {trusted : String} {x y : Exchange} :
    x.Twin trusted y ↔ x.Coupled (.credentials trusted) y :=
  ⟨fun h => ⟨h.request, h.answered, h.closed, h.chunkSize⟩,
    fun h => ⟨h.request, h.answered, h.closed, h.chunkSize⟩⟩

/-- Worlds that differ in credentials that were sent are coupled worlds. -/
theorem World.twin_iff_coupled {trusted : String} {w w' : World} :
    w.Twin trusted w' ↔ w.Coupled (.credentials trusted) w' :=
  ⟨fun h => ⟨h.disk, h.answers, h.shellReplies,
      h.exchanges.imp fun _ _ => Exchange.twin_iff_coupled.1, h.commands, h.journal, h.printed⟩,
    fun h => ⟨h.disk, h.answers, h.shellReplies,
      h.exchanges.imp fun _ _ => Exchange.twin_iff_coupled.2, h.commands, h.journal, h.printed⟩⟩

theorem World.Twin.refl {trusted : String} (w : World) : w.Twin trusted w :=
  World.twin_iff_coupled.2 (.refl Request.Twin.refl (fun _ => Or.inl rfl) w)

/-- Two steps that end in the same way in worlds that differ in credentials, and keep them so. -/
def Session.Alike {α : Type} (trusted : String) (x y : Session α) : Prop :=
  ∀ w w', w.Twin trusted w' →
    (x.perform w).1 = (y.perform w').1 ∧ (x.perform w).2.Twin trusted (y.perform w').2

/-- **Steps are alike if and only if they are coupled.** -/
theorem Session.alike_iff_coupled {α : Type} {trusted : String} {x y : Session α} :
    Alike trusted x y ↔ Coupled (.credentials trusted) x y := by
  simp only [Alike, Coupled, World.twin_iff_coupled]

end ReleaseFetch
