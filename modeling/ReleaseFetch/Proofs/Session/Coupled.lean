/-
**Two runs that differ in what they send.**

Two runs are coupled while they differ in nothing but their requests and their commands, and in
these only as far as a coupling lets them.  Coupled runs that take coupled steps end in the same way
and stay coupled.  This module has the rules by which that is shown of a step from its parts; a step
that leaves the network alone needs no rule of its own, since it is local.

Main definitions:

* `ReleaseFetch.Coupling` — how requests and commands may differ;
* `ReleaseFetch.World.Coupled` — worlds that differ in such requests and commands;
* `ReleaseFetch.Session.Coupled` — steps that do the same to such worlds.

Main results:

* `ReleaseFetch.Session.Coupled.bind`, `ReleaseFetch.Session.Coupled.handle` — one step after
  another;
* `ReleaseFetch.Session.Coupled.of_local` — a local step is coupled with itself;
* `ReleaseFetch.Session.Coupled.send`, `ReleaseFetch.Session.Coupled.execute` — requests and
  commands that may differ.
-/

import Mathlib.Data.List.Forall2
import ReleaseFetch.Proofs.Session.Local

set_option autoImplicit false

namespace ReleaseFetch

/-! ### What may differ -/

/-- How the requests and the commands of two runs may differ. -/
structure Coupling where
  request : Request → Request → Prop
  command : List String → List String → Prop

variable {K : Coupling}

/-- Two exchanges of requests that may differ like this, of which the same became. -/
structure Exchange.Coupled (K : Coupling) (x y : Exchange) : Prop where
  request : K.request x.request y.request
  answered : x.answered = y.answered
  closed : x.closed = y.closed
  chunkSize : x.chunkSize = y.chunkSize

/-- Two worlds that differ at most in what was sent and started. -/
structure World.Coupled (K : Coupling) (w w' : World) : Prop where
  disk : w.disk = w'.disk
  answers : w.answers = w'.answers
  shellReplies : w.shellReplies = w'.shellReplies
  exchanges : List.Forall₂ (Exchange.Coupled K) w.exchanges w'.exchanges
  commands : List.Forall₂ K.command w.commands w'.commands
  journal : w.journal = w'.journal
  printed : w.printed = w'.printed

theorem World.Coupled.refl (hrequest : ∀ q, K.request q q) (hcommand : ∀ c, K.command c c)
    (w : World) : w.Coupled K w :=
  ⟨rfl, rfl, rfl, List.forall₂_same.2 fun x _ => ⟨hrequest x.request, rfl, rfl, rfl⟩,
    List.forall₂_same.2 fun c _ => hcommand c, rfl, rfl⟩

/-- The worlds have the same files, journal and output, so one is the other with its traffic. -/
theorem World.Coupled.eq_withTraffic {w w' : World} (h : w.Coupled K w') :
    w' = w.withTraffic w'.traffic :=
  World.eq_withTraffic h.disk.symm h.journal.symm h.printed.symm

namespace Session

/-! ### Coupled steps -/

/-- Two steps that end in the same way in coupled worlds, and keep them coupled. -/
def Coupled {α : Type} (K : Coupling) (x y : Session α) : Prop :=
  ∀ w w', w.Coupled K w' →
    (x.perform w).1 = (y.perform w').1 ∧ (x.perform w).2.Coupled K (y.perform w').2

namespace Coupled

variable {α β : Type}

/-- **A local step is coupled with itself.** -/
theorem of_local {x : Session α} (hx : x.Local) : Coupled K x x := by
  intro w w' h
  -- a local step does the same with the traffic of the other world around it
  have hperform := hx w w'.traffic
  rw [← h.eq_withTraffic] at hperform
  have ht := hx.traffic w
  rw [hperform]
  refine ⟨rfl, rfl, ?_, ?_, ?_, ?_, rfl, rfl⟩
  · exact (congrArg Traffic.answers ht).trans h.answers
  · exact (congrArg Traffic.shellReplies ht).trans h.shellReplies
  · rw [show (x.perform w).2.exchanges = w.exchanges from congrArg Traffic.exchanges ht]
    exact h.exchanges
  · rw [show (x.perform w).2.commands = w.commands from congrArg Traffic.commands ht]
    exact h.commands

theorem pure (a : α) : Coupled K (pure a : Session α) (pure a) := of_local (.pure a)

theorem throw (f : Failure) : Coupled K (throw f : Session α) (throw f) := of_local (.throw f)

theorem fail (p : Problem) : Coupled K (fail p : Session α) (fail p) := of_local (.fail p)

theorem give (r : Except Failure α) : Coupled K (give r) (give r) := of_local (.give r)

theorem look (f : Disk → Except Failure α) : Coupled K (look f) (look f) := of_local (.look f)

theorem log (l : Level) (s : Source) (text : String) : Coupled K (log l s text) (log l s text) :=
  of_local (.log l s text)

/-- **One step after another.** -/
theorem bind {x y : Session α} {k l : α → Session β} (hx : Coupled K x y)
    (hk : ∀ a, Coupled K (k a) (l a)) : Coupled K (x >>= k) (y >>= l) := by
  intro w w' h
  obtain ⟨hresult, hworld⟩ := hx w w' h
  rw [perform_bind, perform_bind]
  rcases hxw : x.perform w with ⟨r, v⟩
  rcases hyw : y.perform w' with ⟨r', v'⟩
  rw [hxw, hyw] at hresult hworld
  obtain rfl : r = r' := hresult
  cases r with
  | error f => exact ⟨rfl, hworld⟩
  | ok a => exact hk a v v' hworld

/-- A failure ends both runs. -/
theorem stop (f : Failure) {k l : α → Session β} :
    Coupled K (Session.give (.error f) >>= k) (Session.give (.error f) >>= l) := by
  intro w w' h
  rw [perform_bind, perform_bind, perform_give, perform_give]
  exact ⟨rfl, h⟩

theorem attempt {x y : Session α} (hx : Coupled K x y) : Coupled K (attempt x) (attempt y) := by
  intro w w' h
  obtain ⟨hresult, hworld⟩ := hx w w' h
  exact ⟨congrArg Except.ok hresult, hworld⟩

/-- A step whose failure is handled. -/
theorem handle {x y : Session α} {k l : Except Failure α → Session β} (hx : Coupled K x y)
    (hok : ∀ a, Coupled K (k (.ok a)) (l (.ok a)))
    (herror : ∀ f, Coupled K (k (.error f)) (l (.error f))) :
    Coupled K (Session.attempt x >>= k) (Session.attempt y >>= l) := by
  refine bind (attempt hx) ?_
  intro r
  cases r with
  | ok a => exact hok a
  | error f => exact herror f

/-! ### Traffic -/

/-- Exchanges that were opened for coupled requests are coupled. -/
theorem coupled_opened {q q' : Request} (hq : K.request q q') {w w' : World} (h : w.Coupled K w')
    {rest rest' : List Answer} (hrest : rest = rest') (a : Bool) :
    World.Coupled K
      { w with answers := rest, exchanges := w.exchanges ++ [Exchange.opened q a] }
      { w' with answers := rest', exchanges := w'.exchanges ++ [Exchange.opened q' a] } :=
  ⟨h.disk, hrest, h.shellReplies,
    List.rel_append h.exchanges (.cons ⟨hq, rfl, rfl, rfl⟩ .nil), h.commands, h.journal, h.printed⟩

/-- **Requests that may differ meet the same answer.** -/
theorem send {q q' : Request} (hq : K.request q q') : Coupled K (send q) (send q') := by
  intro w w' h
  -- the number of a response counts the exchanges before it, and these are as many
  have hlen := h.exchanges.length_eq
  rw [perform_send, perform_send, ← h.answers]
  split
  · exact ⟨rfl, coupled_opened hq h rfl false⟩
  · exact ⟨rfl, coupled_opened hq h rfl false⟩
  · refine ⟨?_, coupled_opened hq h rfl true⟩
    rw [hlen]

/-- A mark on the same exchange keeps two lists of exchanges coupled. -/
theorem coupled_modify {xs ys : List Exchange} (h : List.Forall₂ (Exchange.Coupled K) xs ys) (n : Nat)
    {f : Exchange → Exchange}
    (hf : ∀ x y, Exchange.Coupled K x y → Exchange.Coupled K (f x) (f y)) :
    List.Forall₂ (Exchange.Coupled K) (xs.modify n f) (ys.modify n f) := by
  induction h generalizing n with
  | nil => simp
  | cons hxy hrest ih =>
      cases n with
      | zero => exact .cons (hf _ _ hxy) hrest
      | succ n => exact .cons hxy (ih n)

theorem close (r : Response) : Coupled K (close r) (close r) := by
  intro w w' h
  refine ⟨rfl, h.disk, h.answers, h.shellReplies, ?_, h.commands, h.journal, h.printed⟩
  exact coupled_modify h.exchanges _ fun _ _ hxy => ⟨hxy.request, hxy.answered, rfl, hxy.chunkSize⟩

theorem startReading (r : Response) (size : Nat) :
    Coupled K (startReading r size) (startReading r size) := by
  intro w w' h
  refine ⟨rfl, h.disk, h.answers, h.shellReplies, ?_, h.commands, h.journal, h.printed⟩
  exact coupled_modify h.exchanges _ fun _ _ hxy => ⟨hxy.request, hxy.answered, hxy.closed, rfl⟩

/-- **Commands that may differ do the same.** -/
theorem execute {c c' : List String} (hc : K.command c c') : Coupled K (execute c) (execute c') := by
  intro w w' h
  have hcommands : List.Forall₂ K.command (w.commands ++ [c]) (w'.commands ++ [c']) :=
    List.rel_append h.commands (.cons hc .nil)
  rw [perform_execute, perform_execute, ← h.shellReplies, ← h.disk]
  split
  · exact ⟨rfl, rfl, h.answers, rfl, h.exchanges, hcommands, h.journal, h.printed⟩
  · exact ⟨rfl, rfl, h.answers, rfl, h.exchanges, hcommands, h.journal, h.printed⟩

end Coupled

end Session

end ReleaseFetch
