/-
**What steps do to the world.**

A step is a function on worlds, and what it does is read off its parts: this module gives the
equation of every primitive step, and the two ways in which longer steps are taken apart.  A step
that succeeded is inverted into steps that succeeded; a step of any outcome is followed by a motion,
a relation between worlds that holds of every part and is carried through to the whole.

Main definitions:

* `ReleaseFetch.Motion` — a relation that every part of a step may be held to;
* `ReleaseFetch.Motion.still` — the disk stays as it is;
* `ReleaseFetch.Session.Moves` — a step whose every outcome is related by a motion.

Main results:

* `ReleaseFetch.Session.perform_bind` — one step after another;
* `ReleaseFetch.Session.bind_ok` — a success is two successes;
* `ReleaseFetch.Session.Moves.bind` — a motion holds of a step if it holds of its parts.
-/

import ReleaseFetch.World

set_option autoImplicit false

namespace ReleaseFetch

namespace Session

variable {α β : Type}

/-! ### Primitive steps -/

@[simp] theorem perform_pure (a : α) (w : World) :
    (pure a : Session α).perform w = (.ok a, w) := rfl

@[simp] theorem perform_throw (f : Failure) (w : World) :
    (throw f : Session α).perform w = (.error f, w) := rfl

@[simp] theorem perform_fail (p : Problem) (w : World) :
    (fail p : Session α).perform w = (.error (.problem p), w) := rfl

@[simp] theorem perform_get (w : World) : (get : Session World).perform w = (.ok w, w) := rfl

@[simp] theorem perform_set (w w' : World) :
    (set w' : Session PUnit).perform w = (.ok ⟨⟩, w') := rfl

@[simp] theorem perform_modify (f : World → World) (w : World) :
    (modify f : Session PUnit).perform w = (.ok ⟨⟩, f w) := rfl

@[simp] theorem perform_give (r : Except Failure α) (w : World) :
    (give r).perform w = (r, w) := by
  cases r <;> rfl

@[simp] theorem perform_attempt (x : Session α) (w : World) :
    (attempt x).perform w = (.ok (x.perform w).1, (x.perform w).2) := rfl

@[simp] theorem perform_log (l : Level) (s : Source) (text : String) (w : World) :
    (log l s text).perform w =
      (.ok (), { w with journal := w.journal ++ [⟨l, s, text, false⟩] }) := rfl

/-- Steps that do the same in every world are the same. -/
theorem eq_of_perform {x y : Session α} (h : ∀ w, x.perform w = y.perform w) : x = y := funext h

/-- One step after another: the second is taken if the first succeeds. -/
theorem perform_bind (x : Session α) (k : α → Session β) (w : World) :
    (x >>= k).perform w =
      match x.perform w with
      | (.ok a, w') => (k a).perform w'
      | (.error f, w') => (.error f, w') := by
  unfold perform
  simp only [ExceptT.run_bind, StateT.run_bind]
  rcases hx : StateT.run (ExceptT.run x) w with ⟨r, w'⟩
  cases r <;> rfl

@[simp] theorem perform_look (f : Disk → Except Failure α) (w : World) :
    (look f).perform w = (f w.disk, w) := by
  simp [look, perform_bind]

theorem perform_change (f : Disk → Except Failure Disk) (w : World) :
    (change f).perform w =
      match f w.disk with
      | .ok d => (.ok (), { w with disk := d })
      | .error e => (.error e, w) := by
  cases h : f w.disk <;> simp [change, perform_bind, h]

/-- A mark on an exchange keeps what it does not touch. -/
theorem map_modify_of_eq {f : Exchange → Exchange} {g : Exchange → α} (xs : List Exchange) (n : Nat)
    (h : ∀ x, g (f x) = g x) : (xs.modify n f).map g = xs.map g := by
  induction xs generalizing n with
  | nil => simp
  | cons x xs ih =>
      cases n with
      | zero => simp [h]
      | succ n => simp [ih]

@[simp] theorem perform_close (r : Response) (w : World) :
    (close r).perform w =
      (.ok (), { w with
        exchanges := w.exchanges.modify r.exchange fun x => { x with closed := true } }) := rfl

@[simp] theorem perform_startReading (r : Response) (size : Nat) (w : World) :
    (startReading r size).perform w =
      (.ok (), { w with
        exchanges := w.exchanges.modify r.exchange fun x => { x with chunkSize := some size } }) :=
  rfl

theorem perform_send (q : Request) (w : World) :
    (send q).perform w =
      match w.answers with
      | [] => (.error noAnswer, { w with exchanges := w.exchanges ++ [Exchange.opened q false] })
      | .failure f :: rest =>
        (.error f, { w with
          answers := rest, exchanges := w.exchanges ++ [Exchange.opened q false] })
      | .reply r :: rest =>
        (.ok ⟨r, w.exchanges.length⟩, { w with
          answers := rest, exchanges := w.exchanges ++ [Exchange.opened q true] }) := by
  unfold send
  rw [perform_bind]
  simp only [perform_get]
  rcases w.answers with _ | ⟨_ | _, _⟩ <;> rfl

theorem perform_execute (command : List String) (w : World) :
    (execute command).perform w =
      match w.shellReplies with
      | [] => (.error noCommand, { w with commands := w.commands ++ [command] })
      | reply :: rest =>
        (match reply.failure with
          | some f => .error f
          | none => .ok (reply.code, reply.stderr),
          { w with
            commands := w.commands ++ [command], shellReplies := rest,
            disk := reply.writes.foldl deposit w.disk }) := by
  unfold execute
  rw [perform_bind]
  simp only [perform_get]
  rcases w.shellReplies with _ | ⟨reply, rest⟩
  · rfl
  · simp only [perform_bind, perform_set]
    cases reply.failure <;> rfl

/-! ### Successes -/

/-- A success is two successes. -/
theorem bind_ok {x : Session α} {k : α → Session β} {w w' : World} {b : β}
    (h : (x >>= k).perform w = (.ok b, w')) :
    ∃ a v, x.perform w = (.ok a, v) ∧ (k a).perform v = (.ok b, w') := by
  rw [perform_bind] at h
  split at h
  · next a v hx => exact ⟨a, v, hx, h⟩
  · cases h

theorem give_ok {r : Except Failure α} {w w' : World} {a : α}
    (h : (give r).perform w = (.ok a, w')) : r = .ok a ∧ w' = w := by
  rw [perform_give] at h
  obtain ⟨h₁, h₂⟩ := Prod.mk.inj h
  exact ⟨h₁, h₂.symm⟩

theorem change_ok {f : Disk → Except Failure Disk} {w w' : World}
    (h : (change f).perform w = (.ok (), w')) :
    ∃ d, f w.disk = .ok d ∧ w' = { w with disk := d } := by
  rw [perform_change] at h
  split at h
  · next d hd => exact ⟨d, hd, (Prod.mk.inj h).2.symm⟩
  · cases h

/-- A step whose failure is a value always succeeds, with the outcome of the step. -/
theorem attempt_ok {x : Session α} {w w' : World} {r : Except Failure α}
    (h : (attempt x).perform w = (.ok r, w')) : x.perform w = (r, w') := by
  rw [perform_attempt] at h
  obtain ⟨h₁, h₂⟩ := Prod.mk.inj h
  exact Prod.ext (Except.ok.inj h₁) h₂

theorem send_ok {q : Request} {w w' : World} {r : Response}
    (h : (send q).perform w = (.ok r, w')) :
    w.answers = .reply r.reply :: w'.answers ∧ r.exchange = w.exchanges.length ∧
      w' = { w with
        answers := w'.answers, exchanges := w.exchanges ++ [Exchange.opened q true] } := by
  rw [perform_send] at h
  split at h
  · cases h
  · cases h
  · next reply rest hanswers =>
    obtain ⟨h₁, rfl⟩ := Prod.mk.inj h
    obtain rfl := Except.ok.inj h₁
    exact ⟨hanswers, rfl, rfl⟩

end Session

/-! ### Motions -/

/-- A relation between a world and what a step may make of it, which leaves the journal open. -/
structure Motion where
  rel : World → World → Prop
  refl : ∀ w, rel w w
  trans : ∀ {u v w}, rel u v → rel v w → rel u w
  journal : ∀ w j, rel w { w with journal := j }

namespace Session

/-- Whatever the step ends with, the motion holds of what it did. -/
def Moves {α : Type} (T : Motion) (x : Session α) : Prop := ∀ w, T.rel w (x.perform w).2

namespace Moves

variable {α β : Type} {T : Motion}

theorem pure (a : α) : Moves T (pure a : Session α) := T.refl

theorem throw (f : Failure) : Moves T (throw f : Session α) := T.refl

theorem fail (p : Problem) : Moves T (fail p : Session α) := T.refl

theorem give (r : Except Failure α) : Moves T (give r) := by
  intro w
  rw [perform_give]
  exact T.refl w

theorem look (f : Disk → Except Failure α) : Moves T (look f) := by
  intro w
  rw [perform_look]
  exact T.refl w

theorem log (l : Level) (s : Source) (text : String) : Moves T (log l s text) :=
  fun w => T.journal w _

theorem attempt {x : Session α} (hx : Moves T x) : Moves T (attempt x) := hx

/-- A motion that holds of the first step holds of both, if it holds of whatever comes second. -/
theorem bind_at {x : Session α} {k : α → Session β} {w : World} (hx : T.rel w (x.perform w).2)
    (hk : ∀ a, Moves T (k a)) : T.rel w ((x >>= k).perform w).2 := by
  rw [perform_bind]
  split
  · next a v h =>
    rw [h] at hx
    exact T.trans hx (hk a v)
  · next f v h =>
    rw [h] at hx
    exact hx

/-- **A motion holds of a step if it holds of its parts.** -/
theorem bind {x : Session α} {k : α → Session β} (hx : Moves T x) (hk : ∀ a, Moves T (k a)) :
    Moves T (x >>= k) := fun w => bind_at (hx w) hk

/-- What a value is known to be can be used for what comes after it. -/
theorem give_bind {r : Except Failure α} {k : α → Session β}
    (hk : ∀ a, r = .ok a → Moves T (k a)) : Moves T (Session.give r >>= k) := by
  cases r with
  | error f => exact fun w => T.refl w
  | ok a => exact hk a rfl

end Moves

end Session

/-! ### Steps that leave the disk alone -/

/-- The disk stays as it is. -/
def Motion.still : Motion where
  rel w w' := w'.disk = w.disk
  refl _ := rfl
  trans h h' := h'.trans h
  journal _ _ := rfl

namespace Session

theorem send_still (q : Request) : (send q).Moves Motion.still := by
  intro w
  rw [perform_send]
  split <;> rfl

theorem close_still (r : Response) : (close r).Moves Motion.still := fun _ => rfl

end Session

end ReleaseFetch
