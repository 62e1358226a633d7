/-
**What is decided before a request.**

The headers of a request, its proxy and the credential of that proxy depend on the options, the URL
and the environment alone.  To decide on them does nothing but write to the journal, so what a run
decides is a value, whatever world it runs in.

Main definitions:

* `ReleaseFetch.Session.Yields` — a step that ends with a known result and only writes to the
  journal;
* `ReleaseFetch.Proxy.ofRequest` — the proxy of a request;
* `ReleaseFetch.Shell.jobFor` — what the script for a download has to say.

Main results:

* `ReleaseFetch.Proxy.forRequest_yields`, `ReleaseFetch.Shell.job_yields` — the steps of a run
  decide on these values;
* `ReleaseFetch.Proxy.ne_empty_of_ofRequest` — a proxy is never the empty text.
-/

import ReleaseFetch.Proofs.Credential.Scope

set_option autoImplicit false

namespace ReleaseFetch

/-! ### Decisions -/

section Decisions

variable {α β : Type}

/-- A decision made in two parts. -/
theorem decided_bind {r : Except Failure α} {s : α → Except Failure β} {b : β}
    (h : r >>= s = .ok b) : ∃ a, r = .ok a ∧ s a = .ok b := by
  cases r with
  | error f => cases h
  | ok a => exact ⟨a, rfl, h⟩

theorem decided_map {r : Except Failure α} {f : α → β} {b : β} (h : r.map f = .ok b) :
    ∃ a, r = .ok a ∧ f a = b := by
  cases r with
  | error f => cases h
  | ok a => exact ⟨a, rfl, Except.ok.inj h⟩

end Decisions

/-! ### Steps with a known result -/

namespace Session

variable {α β : Type}

/-- The step ends with the result from everywhere, and all that it does is to write to the
journal. -/
def Yields (x : Session α) (r : Except Failure α) : Prop :=
  ∃ j, ∀ w, x.perform w = (r, { w with journal := w.journal ++ j })

namespace Yields

theorem give (r : Except Failure α) : (give r).Yields r := by
  refine ⟨[], fun w => ?_⟩
  rw [perform_give, List.append_nil]

theorem log (l : Level) (s : Source) (text : String) : (log l s text).Yields (.ok ()) :=
  ⟨_, fun _ => rfl⟩

/-- One step after another. -/
theorem bind {x : Session α} {k : α → Session β} {r : Except Failure α}
    {s : α → Except Failure β} (hx : x.Yields r) (hk : ∀ a, (k a).Yields (s a)) :
    (x >>= k).Yields (r >>= s) := by
  obtain ⟨j, h⟩ := hx
  cases r with
  | error f => exact ⟨j, fun w => by rw [perform_bind, h]; rfl⟩
  | ok a =>
      obtain ⟨j', h'⟩ := hk a
      refine ⟨j ++ j', fun w => ?_⟩
      rw [perform_bind, h]
      simp only [h', List.append_assoc]
      rfl

/-- A step with a known result only writes to the journal. -/
theorem quiet {x : Session α} {r : Except Failure α} (hx : x.Yields r) : x.Quiet := ⟨r, hx⟩

/-- A step that is performed ends with its result. -/
theorem eq {x : Session α} {r out : Except Failure α} {w w' : World} (hx : x.Yields r)
    (h : x.perform w = (out, w')) : out = r := by
  obtain ⟨j, hj⟩ := hx
  rw [hj] at h
  exact (Prod.mk.inj h).1.symm

end Yields

end Session

open Session

/-! ### The proxy of a request -/

namespace Proxy

/-- The proxy of a choice. -/
def Choice.proxy? : Choice → Option String
  | .through proxy => some proxy
  | .direct | .excepted _ => none

/-- **The proxy of a request**: the one that the options name, or else the one of the URL. -/
def ofRequest (h : Host) (url : String) (o : Options) : Except Failure (Option String) :=
  match o.proxy.filter (· != "") with
  | some proxy => .ok (some proxy)
  | none => (choose h url).map Choice.proxy?

theorem forUrl_yields (h : Host) (url : String) :
    (forUrl h url).Yields ((choose h url).map Choice.proxy?) := by
  have hbind : (choose h url).map Choice.proxy? = (choose h url >>= fun c => .ok c.proxy?) := by
    cases choose h url <;> rfl
  rw [hbind]
  refine .bind (.give _) ?_
  intro choice
  cases choice with
  | direct => exact .give (.ok none)
  | through proxy => exact .give (.ok (some proxy))
  | excepted hostname => exact .bind (.log _ _ _) fun _ => .give (.ok none)

/-- The choice of a proxy is a value. -/
theorem forRequest_yields (h : Host) (url : String) (o : Options) :
    (forRequest h url o).Yields (ofRequest h url o) := by
  unfold forRequest ofRequest
  cases o.proxy.filter (· != "") with
  | some proxy => exact .give (.ok (some proxy))
  | none => exact forUrl_yields h url

/-- A proxy with its scheme is not empty. -/
theorem completed_ne_empty (scheme proxy : String) : completed scheme proxy ≠ "" := by
  unfold completed
  split
  · next hscheme =>
    rintro rfl
    exact absurd hscheme (by decide)
  · intro hempty
    have hmark := (String.append_eq_empty_iff.1 (String.append_eq_empty_iff.1 hempty).1).2
    exact absurd hmark (by decide)

theorem ne_empty_of_choose {h : Host} {url proxy : String}
    (hchoose : choose h url = .ok (.through proxy)) : proxy ≠ "" := by
  have hconfigured : ∀ scheme, ofConfigured h scheme = .through proxy → proxy ≠ "" := by
    intro scheme hthrough
    unfold ofConfigured at hthrough
    simp only at hthrough
    split at hthrough
    · obtain rfl := Choice.through.inj hthrough
      exact completed_ne_empty _ _
    · cases hthrough
  unfold choose at hchoose
  grind

/-- A proxy is never the empty text. -/
theorem ne_empty_of_ofRequest {h : Host} {url proxy : String} {o : Options}
    (hproxy : ofRequest h url o = .ok (some proxy)) : proxy ≠ "" := by
  unfold ofRequest at hproxy
  split at hproxy
  · next p hp =>
    obtain rfl := Option.some.inj (Except.ok.inj hproxy)
    simpa using (Option.filter_eq_some_iff.1 hp).2
  · obtain ⟨choice, hchoose, hchoice⟩ := decided_map hproxy
    cases choice with
    | direct => cases hchoice
    | excepted hostname => cases hchoice
    | through p =>
        obtain rfl := Option.some.inj hchoice
        exact ne_empty_of_choose hchoose

end Proxy

/-! ### The script for a download -/

namespace Shell

/-- **What the script for a download has to say.** -/
def jobFor (h : Host) (url : String) (destination : Path) (o : Options) :
    Except Failure Script.Job := do
  let headers ← o.headers.scopedTo url o.trustedHost
  let proxy ← Proxy.ofRequest h url o
  let credential ← credentialFor proxy
  return jobOf url destination headers proxy credential

/-- What a script has to say, from its parts. -/
theorem jobFor_ok {h : Host} {url : String} {destination : Path} {o : Options} {j : Script.Job}
    (hjob : jobFor h url destination o = .ok j) :
    ∃ headers proxy credential, o.headers.scopedTo url o.trustedHost = .ok headers ∧
      Proxy.ofRequest h url o = .ok proxy ∧ credentialFor proxy = .ok credential ∧
        j = jobOf url destination headers proxy credential := by
  obtain ⟨headers, hheaders, hjob⟩ := decided_bind hjob
  obtain ⟨proxy, hproxy, hjob⟩ := decided_bind hjob
  obtain ⟨credential, hcredential, hjob⟩ := decided_bind hjob
  exact ⟨headers, proxy, credential, hheaders, hproxy, hcredential, (Except.ok.inj hjob).symm⟩

/-- What a script has to say is a value. -/
theorem job_yields (h : Host) (url : String) (destination : Path) (o : Options) :
    (job h url destination o).Yields (jobFor h url destination o) := by
  refine .bind (.give _) fun headers => .bind (Proxy.forRequest_yields h url o) fun proxy => ?_
  cases proxy with
  | none => exact .give (.ok _)
  | some p => exact .bind (.give _) fun credential => .give (.ok _)

end Shell

end ReleaseFetch
