/-
**Steps that go on undisturbed.**

An interrupt comes from outside: from what a request meets, or from a command.  Steps that neither
send nor start anything are not ended by one, and most of them report no failure either: the steps
on files, and the decisions of a run.

Main definitions:

* `ReleaseFetch.Motion.idle` — nothing was sent, started or read;
* `ReleaseFetch.Reported`, `ReleaseFetch.Session.Calm` — a failure is reported, or none is;
* `ReleaseFetch.Session.Uninterrupted` — a step that no interrupt ends;
* `ReleaseFetch.Session.Steady` — a step that meets nothing, reports nothing and is not interrupted.

Main results:

* `ReleaseFetch.Session.Steady.bind`, `ReleaseFetch.Session.Steady.handle` — steps of steady steps;
* `ReleaseFetch.Files.ensureDirectory_steady`, `ReleaseFetch.Files.discard_steady`,
  `ReleaseFetch.Files.copyExecutable_steady`, `ReleaseFetch.Files.findBinary_steady` — steps on
  files.
-/

import ReleaseFetch.Proofs.Session.Local
import ReleaseFetch.Proofs.Session.Unbroken

set_option autoImplicit false

namespace ReleaseFetch

open Disk Session

/-! ### Steps without traffic -/

/-- Nothing was sent, started or read. -/
def Motion.idle : Motion where
  rel w w' := w'.answers = w.answers ∧ w'.shellReplies = w.shellReplies ∧
    w'.commands = w.commands ∧
    w'.exchanges.map Exchange.chunkSize = w.exchanges.map Exchange.chunkSize
  refl _ := ⟨rfl, rfl, rfl, rfl⟩
  trans h h' := ⟨h'.1.trans h.1, h'.2.1.trans h.2.1, h'.2.2.1.trans h.2.2.1,
    h'.2.2.2.trans h.2.2.2⟩
  journal _ _ := ⟨rfl, rfl, rfl, rfl⟩

theorem Session.Local.idle {α : Type} {x : Session α} (hx : x.Local) : x.Moves Motion.idle := by
  intro w
  have h := hx.traffic w
  exact ⟨congrArg Traffic.answers h, congrArg Traffic.shellReplies h, congrArg Traffic.commands h,
    congrArg (fun t => t.exchanges.map Exchange.chunkSize) h⟩

/-- To close an exchange is not to read it. -/
theorem Session.close_idle (r : Response) : (close r).Moves Motion.idle :=
  fun _ => ⟨rfl, rfl, rfl, map_modify_of_eq _ _ fun _ => rfl⟩

/-! ### Reports -/

/-- A failure is reported among the records. -/
def Reported (j : List Record) : Prop := ∃ r ∈ j, r.level = .error

theorem not_reported_nil : ¬Reported [] := by
  rintro ⟨r, hr, -⟩
  cases hr

theorem reported_append {j j' : List Record} : Reported (j ++ j') ↔ Reported j ∨ Reported j' := by
  simp only [Reported, List.mem_append, or_and_right, exists_or]

theorem not_reported_append {j j' : List Record} (h : ¬Reported j) (h' : ¬Reported j') :
    ¬Reported (j ++ j') := fun hj => (reported_append.1 hj).elim h h'

/-! ### Steps without interrupts -/

/-- No interrupt ends the step. -/
def Session.Uninterrupted {α : Type} (x : Session α) : Prop :=
  ∀ w f, (x.perform w).1 = .error f → f.isInterrupt = false

namespace Session.Uninterrupted

variable {α β : Type}

theorem give {r : Except Failure α} (hr : Unbroken r) : Uninterrupted (give r) := by
  intro w f h
  rw [perform_give] at h
  exact hr f h

theorem look {g : Disk → Except Failure α} (hg : ∀ d, Unbroken (g d)) : Uninterrupted (look g) := by
  intro w f h
  rw [perform_look] at h
  exact hg w.disk f h

theorem change {g : Disk → Except Failure Disk} (hg : ∀ d, Unbroken (g d)) :
    Uninterrupted (change g) := by
  intro w f h
  rw [perform_change] at h
  split at h
  · cases h
  · next g' hfail =>
    obtain rfl := Except.error.inj h
    exact hg w.disk _ hfail

theorem bind {x : Session α} {k : α → Session β} (hx : Uninterrupted x)
    (hk : ∀ a, Uninterrupted (k a)) : Uninterrupted (x >>= k) := by
  intro w f h
  rw [perform_bind] at h
  split at h
  · next a v hperform => exact hk a v f h
  · next g v hperform =>
    obtain rfl := Except.error.inj h
    exact hx w _ (by rw [hperform])

end Session.Uninterrupted

/-! ### Steady steps -/

namespace Session

variable {α β : Type}

/-- Whatever the step ends with, it reports no failure. -/
def Calm (x : Session α) : Prop :=
  ∀ w, ∃ j, (x.perform w).2.journal = w.journal ++ j ∧ ¬Reported j

theorem Calm.of_same {x : Session α} (h : ∀ w, (x.perform w).2.journal = w.journal) : Calm x :=
  fun w => ⟨[], by rw [h, List.append_nil], not_reported_nil⟩

theorem Calm.bind {x : Session α} {k : α → Session β} (hx : Calm x) (hk : ∀ a, Calm (k a)) :
    Calm (x >>= k) := by
  intro w
  rw [perform_bind]
  obtain ⟨j, hj, hcalm⟩ := hx w
  rcases hperform : x.perform w with ⟨r, v⟩
  rw [hperform] at hj
  cases r with
  | error f => exact ⟨j, hj, hcalm⟩
  | ok a =>
      obtain ⟨j', hj', hcalm'⟩ := hk a v
      refine ⟨j ++ j', ?_, not_reported_append hcalm hcalm'⟩
      rw [hj', hj, List.append_assoc]

/-- The step meets no interrupt, reports no failure, and is not ended by an interrupt. -/
structure Steady (x : Session α) : Prop where
  idle : x.Moves Motion.idle
  calm : Calm x
  uninterrupted : Uninterrupted x

namespace Steady

/-- A step that only decides. -/
theorem give {r : Except Failure α} (hr : Unbroken r) : Steady (give r) :=
  ⟨.give r, .of_same fun w => by rw [perform_give], .give hr⟩

theorem pure (a : α) : Steady (pure a : Session α) := give (.ok a)

theorem throw {f : Failure} (hf : f.isInterrupt = false) : Steady (throw f : Session α) :=
  give (.error hf)

theorem fail (p : Problem) : Steady (fail p : Session α) := throw rfl

theorem get : Steady (get : Session World) :=
  ⟨fun _ => ⟨rfl, rfl, rfl, rfl⟩, .of_same fun _ => rfl, fun _ _ h => by cases h⟩

theorem look {g : Disk → Except Failure α} (hg : ∀ d, Unbroken (g d)) : Steady (look g) :=
  ⟨.look g, .of_same fun w => by rw [perform_look], .look hg⟩

theorem change {g : Disk → Except Failure Disk} (hg : ∀ d, Unbroken (g d)) : Steady (change g) := by
  refine ⟨(Local.change g).idle, .of_same fun w => ?_, .change hg⟩
  rw [perform_change]
  cases g w.disk <;> rfl

theorem close (r : Response) : Steady (close r) :=
  ⟨close_idle r, .of_same fun _ => rfl, fun _ _ h => by cases h⟩

theorem print (line : String) : Steady (print line) :=
  ⟨fun _ => ⟨rfl, rfl, rfl, rfl⟩, .of_same fun _ => rfl, fun _ _ h => by cases h⟩

theorem log {l : Level} (hl : l ≠ .error) (s : Source) (text : String) : Steady (log l s text) := by
  refine ⟨.log l s text, fun w => ⟨_, rfl, ?_⟩, fun _ _ h => by cases h⟩
  rintro ⟨r, hr, hlevel⟩
  obtain rfl := List.mem_singleton.1 hr
  exact hl hlevel

/-- **Steps of steady steps are steady.** -/
theorem bind {x : Session α} {k : α → Session β} (hx : Steady x) (hk : ∀ a, Steady (k a)) :
    Steady (x >>= k) :=
  ⟨.bind hx.idle fun a => (hk a).idle, .bind hx.calm fun a => (hk a).calm,
    .bind hx.uninterrupted fun a => (hk a).uninterrupted⟩

/-- A steady step whose failure is handled: it was no interrupt. -/
theorem handle {x : Session α} {k : Except Failure α → Session β} (hx : Steady x)
    (hok : ∀ a, Steady (k (.ok a)))
    (herror : ∀ f, f.isInterrupt = false → Steady (k (.error f))) :
    Steady (attempt x >>= k) := by
  -- what the handler does with an interrupt does not matter, since there is none
  have hcases (w : World) : Steady (k (x.perform w).1) := by
    cases hresult : (x.perform w).1 with
    | ok a => exact hok a
    | error f => exact herror f (hx.uninterrupted w f hresult)
  refine ⟨fun w => ?_, fun w => ?_, fun w f h => ?_⟩
  · rw [perform_bind, perform_attempt]
    exact Motion.idle.trans (hx.idle w) ((hcases w).idle _)
  · rw [perform_bind, perform_attempt]
    obtain ⟨j, hj, hcalm⟩ := hx.calm w
    obtain ⟨j', hj', hcalm'⟩ := (hcases w).calm (x.perform w).2
    refine ⟨j ++ j', ?_, not_reported_append hcalm hcalm'⟩
    simp only
    rw [hj', hj, List.append_assoc]
  · rw [perform_bind, perform_attempt] at h
    exact (hcases w).uninterrupted _ f h

end Steady

end Session

/-! ### Steps on files -/

namespace Files

theorem passIfThere_steady (p : Path) {f : Failure} (hf : f.isInterrupt = false) :
    (passIfThere p f).Steady := by
  unfold passIfThere
  have hthere : (do
      if !(← look (·.isDirectory? p)) then throw f : Session Unit).Steady := by
    refine .bind (.look fun d => d.isDirectory?_unbroken p) ?_
    intro found
    split
    · exact .throw hf
    · exact .pure _
  split
  · exact .bind (.throw hf) fun _ => hthere
  · exact hthere

theorem ensureDirectory_steady (p : Path) : (ensureDirectory p).Steady :=
  ensureWithin_induct (A := fun _ => True) (E := fun f => f.isInterrupt = false)
    (fun _ _ => trivial)
    (fun _ _ _ hk => .handle (.change fun d => d.makeDirectory_unbroken _) (fun _ => .pure _) hk)
    (fun _ hf => .throw hf) (fun p _ _ hf => passIfThere_steady p hf)
    (fun _ _ hx hy => .bind hx fun _ => hy) _ trivial

theorem discard_steady (p : Path) : (discard p).Steady := by
  refine .handle (.change fun d => d.unlink_unbroken p) (fun _ => .pure _) ?_
  intro f hf
  simp only
  split
  · exact .pure _
  · split
    · exact .bind (.log (by decide) _ _) fun _ => .pure _
    · exact .throw hf

/-- A path that the system cannot be given makes discarding fail. -/
theorem discard_nul {p : Path} (h : hasNul p = true) (w : World) :
    ((discard p).perform w).1 = .error nulFailure := by
  have hunlink : w.disk.unlink p = .error nulFailure := by
    rw [unlink, find, if_pos h]
  rw [perform_discard, hunlink]
  rfl

theorem copyExecutable_steady (source destination : Path) :
    (copyExecutable source destination).Steady :=
  .bind (ensureDirectory_steady _) fun _ => .change fun d => d.copyFile_unbroken source destination

theorem findBinary_steady (directory : Path) (name : String) :
    (findBinary directory name).Steady := by
  rw [findBinary_eq]
  refine .look fun d => .bind (d.exists?_unbroken _) ?_
  intro bare
  split
  · exact .ok _
  · refine .bind (d.exists?_unbroken _) ?_
    intro suffixed
    split
    · exact .ok _
    · exact .ok _

theorem makeExecutable_steady (p : Path) : (makeExecutable p).Steady :=
  .change fun d => d.setMode_unbroken p _

end Files

end ReleaseFetch
