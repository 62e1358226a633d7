/-
**How a step that is interrupted, or fails, has to end.**

An interrupt comes from outside: a request meets it instead of a reply, a body that is read breaks
off with it, or a command ends in it.  A step gives account of itself if it ends with an interrupt
exactly where one was met since the run began, and if it reports a failure in the journal only where
it ends with one.  Steps are put together of such steps, also where a failure is handled: the
handler of an interrupt has to pass it on, and the handler of any other failure has to end with a
failure again.

Main definitions:

* `ReleaseFetch.World.Interrupted` — an interrupt was met between two worlds;
* `ReleaseFetch.Session.Refuses`, `ReleaseFetch.Session.Stops` — handlers that end with a failure;
* `ReleaseFetch.Accounted`, `ReleaseFetch.Session.Accounts` — steps that give account.

Main results:

* `ReleaseFetch.World.Since.interrupted_exchange`, `ReleaseFetch.World.Since.interrupted_command` —
  one more request or command meets an interrupt if its answer is one;
* `ReleaseFetch.Session.Accounts.bind`, `ReleaseFetch.Session.Accounts.handle` — steps that are put
  together of such steps;
* `ReleaseFetch.Session.send_accounts`, `ReleaseFetch.Session.execute_accounts` — requests and
  commands.
-/

import ReleaseFetch.Proofs.Session.Steady
import ReleaseFetch.Proofs.Transfer.Writing

set_option autoImplicit false

namespace ReleaseFetch

open Session

/-! ### Interrupts -/

/-- The answer brings an interrupt to an exchange: instead of a reply, or in a body that is read. -/
def Answer.Interrupts (x : Exchange) : Answer → Prop
  | .failure f => f = .interrupt
  | .reply r => x.chunkSize.isSome ∧ Chunk.gather r.chunks = .error .interrupt

namespace World

/-- **An interrupt was met between the worlds**, by something that was sent or by something that was
started. -/
def Interrupted (w w' : World) : Prop :=
  (∃ n x a, w'.exchanges[w.exchanges.length + n]? = some x ∧ w.answers[n]? = some a ∧
      a.Interrupts x) ∨
    ∃ n c r, w'.commands[w.commands.length + n]? = some c ∧ w.shellReplies[n]? = some r ∧
      r.failure = some .interrupt

/-- The second world came of the first one: every request and every command has taken an answer, as
long as there were any. -/
structure Since (w w' : World) : Prop where
  exchanges : w.exchanges.length ≤ w'.exchanges.length
  answers : w'.answers = w.answers.drop (w'.exchanges.length - w.exchanges.length)
  commands : w.commands.length ≤ w'.commands.length
  shellReplies : w'.shellReplies = w.shellReplies.drop (w'.commands.length - w.commands.length)

/-- The second world came of the first one without an interrupt. -/
structure Undisturbed (w w' : World) : Prop where
  since : w.Since w'
  clear : ¬w.Interrupted w'

theorem Undisturbed.refl (w : World) : w.Undisturbed w := by
  refine ⟨⟨Nat.le_refl _, by simp, Nat.le_refl _, by simp⟩, ?_⟩
  rintro (⟨n, x, a, hx, -, -⟩ | ⟨n, c, r, hc, -, -⟩)
  · rw [List.getElem?_eq_none (Nat.le_add_right _ n)] at hx
    cases hx
  · rw [List.getElem?_eq_none (Nat.le_add_right _ n)] at hc
    cases hc

variable {w v v' : World}

theorem Since.idle (h : w.Since v) (hidle : Motion.idle.rel v v') : w.Since v' := by
  obtain ⟨hanswers, hreplies, hcommands, hread⟩ := hidle
  have hlength : v'.exchanges.length = v.exchanges.length := by
    simpa using congrArg List.length hread
  constructor
  · rw [hlength]
    exact h.exchanges
  · rw [hanswers, hlength]
    exact h.answers
  · rw [hcommands]
    exact h.commands
  · rw [hreplies, hcommands]
    exact h.shellReplies

/-- Without traffic no interrupt is met. -/
theorem interrupted_idle (hidle : Motion.idle.rel v v') : w.Interrupted v' ↔ w.Interrupted v := by
  obtain ⟨-, -, hcommands, hread⟩ := hidle
  -- what was read of the exchange of a number is the same in both worlds
  have hmeets (u u' : World)
      (hread : u'.exchanges.map Exchange.chunkSize = u.exchanges.map Exchange.chunkSize) (n : Nat)
      (a : Answer) : (∃ x, u'.exchanges[n]? = some x ∧ a.Interrupts x) →
        ∃ x, u.exchanges[n]? = some x ∧ a.Interrupts x := by
    rintro ⟨x, hx, ha⟩
    have hn := congrArg (fun l => l[n]?) hread
    simp only [List.getElem?_map, hx, Option.map_some] at hn
    obtain ⟨y, hy, hsize⟩ := Option.map_eq_some_iff.1 hn.symm
    refine ⟨y, hy, ?_⟩
    cases a with
    | failure f => exact ha
    | reply r => exact ⟨by rw [hsize]; exact ha.1, ha.2⟩
  unfold Interrupted
  rw [hcommands]
  refine or_congr ⟨?_, ?_⟩ Iff.rfl
  · rintro ⟨n, x, a, hx, hanswer, ha⟩
    obtain ⟨y, hy, hay⟩ := hmeets v v' hread _ a ⟨x, hx, ha⟩
    exact ⟨n, y, a, hy, hanswer, hay⟩
  · rintro ⟨n, x, a, hx, hanswer, ha⟩
    obtain ⟨y, hy, hay⟩ := hmeets v' v hread.symm _ a ⟨x, hx, ha⟩
    exact ⟨n, y, a, hy, hanswer, hay⟩

theorem Undisturbed.idle (h : w.Undisturbed v) (hidle : Motion.idle.rel v v') :
    w.Undisturbed v' :=
  ⟨h.since.idle hidle, fun hv => h.clear ((interrupted_idle hidle).1 hv)⟩

/-! ### One request, one command -/

/-- One more element has taken the first answer that is left: the elements from a position on have
taken one each. -/
theorem meets_concat {α β : Type} {xs : List α} {k : Nat} (hk : k ≤ xs.length) (x : α) (as : List β)
    (P : α → β → Prop) :
    (∃ n y a, (xs ++ [x])[k + n]? = some y ∧ as[n]? = some a ∧ P y a) ↔
      (∃ n y a, xs[k + n]? = some y ∧ as[n]? = some a ∧ P y a) ∨
        ∃ a, (as.drop (xs.length - k)).head? = some a ∧ P x a := by
  rw [List.head?_drop]
  constructor
  · rintro ⟨n, y, a, hy, hanswer, ha⟩
    rcases Nat.lt_trichotomy (k + n) xs.length with hlt | heq | hgt
    · rw [List.getElem?_append_left hlt] at hy
      exact .inl ⟨n, y, a, hy, hanswer, ha⟩
    · rw [heq, List.getElem?_concat_length] at hy
      obtain rfl := Option.some.inj hy
      refine .inr ⟨a, ?_, ha⟩
      rwa [← heq, Nat.add_sub_cancel_left]
    · rw [List.getElem?_eq_none (by simp; omega)] at hy
      cases hy
  · rintro (⟨n, y, a, hy, hanswer, ha⟩ | ⟨a, hanswer, ha⟩)
    · have hlt := (List.getElem?_eq_some_iff.1 hy).1
      exact ⟨n, y, a, by rwa [List.getElem?_append_left hlt], hanswer, ha⟩
    · refine ⟨xs.length - k, x, a, ?_, hanswer, ha⟩
      rw [Nat.add_sub_cancel' hk, List.getElem?_concat_length]

/-- **One more exchange** meets an interrupt if its answer brings one. -/
theorem Since.interrupted_exchange {x : Exchange} (h : w.Since v)
    (hexchanges : v'.exchanges = v.exchanges ++ [x]) (hcommands : v'.commands = v.commands) :
    w.Interrupted v' ↔ w.Interrupted v ∨ ∃ a, v.answers.head? = some a ∧ a.Interrupts x := by
  have hmeets := meets_concat h.exchanges x w.answers Answer.Interrupts
  unfold Interrupted
  rw [hexchanges, hcommands, h.answers, hmeets]
  exact or_right_comm

/-- One more exchange has taken one more answer. -/
theorem Since.exchange {x : Exchange} (h : w.Since v)
    (hexchanges : v'.exchanges = v.exchanges ++ [x]) (hanswers : v'.answers = v.answers.tail)
    (hcommands : v'.commands = v.commands) (hreplies : v'.shellReplies = v.shellReplies) :
    w.Since v' := by
  have hle := h.exchanges
  constructor
  · rw [hexchanges, List.length_append]
    omega
  · rw [hanswers, hexchanges, h.answers, List.tail_drop, List.length_append]
    congr 1
    simp only [List.length_cons, List.length_nil]
    omega
  · rw [hcommands]
    exact h.commands
  · rw [hreplies, hcommands]
    exact h.shellReplies

/-- **One more command** meets an interrupt if its answer is one. -/
theorem Since.interrupted_command {c : List String} (h : w.Since v)
    (hexchanges : v'.exchanges = v.exchanges) (hcommands : v'.commands = v.commands ++ [c]) :
    w.Interrupted v' ↔
      w.Interrupted v ∨ ∃ r, v.shellReplies.head? = some r ∧ r.failure = some .interrupt := by
  have hmeets := meets_concat h.commands c w.shellReplies fun _ r => r.failure = some .interrupt
  unfold Interrupted
  rw [hexchanges, hcommands, h.shellReplies, hmeets]
  exact or_assoc.symm

/-- One more command has taken one more answer. -/
theorem Since.command {c : List String} (h : w.Since v) (hexchanges : v'.exchanges = v.exchanges)
    (hanswers : v'.answers = v.answers) (hcommands : v'.commands = v.commands ++ [c])
    (hreplies : v'.shellReplies = v.shellReplies.tail) : w.Since v' := by
  have hle := h.commands
  constructor
  · rw [hexchanges]
    exact h.exchanges
  · rw [hanswers, hexchanges]
    exact h.answers
  · rw [hcommands, List.length_append]
    omega
  · rw [hreplies, hcommands, h.shellReplies, List.tail_drop, List.length_append]
    congr 1
    simp only [List.length_cons, List.length_nil]
    omega

end World

/-! ### Handlers -/

namespace Session

variable {α β : Type}

/-- Whatever the step does, it ends with a failure that is no interrupt. -/
structure Refuses (x : Session α) : Prop where
  idle : x.Moves Motion.idle
  grows : ∀ w, ∃ j, (x.perform w).2.journal = w.journal ++ j
  refuses : ∀ w, ∃ f, (x.perform w).1 = .error f ∧ f.isInterrupt = false

namespace Refuses

theorem throw {f : Failure} (hf : f.isInterrupt = false) : Refuses (throw f : Session α) :=
  ⟨.throw f, fun w => ⟨[], (List.append_nil w.journal).symm⟩, fun _ => ⟨f, rfl, hf⟩⟩

theorem fail (p : Problem) : Refuses (fail p : Session α) := throw rfl

/-- A step that comes before. -/
theorem bind {x : Session α} {k : α → Session β} (hidle : x.Moves Motion.idle)
    (hgrows : ∀ w, ∃ j, (x.perform w).2.journal = w.journal ++ j) (hx : Uninterrupted x)
    (hk : ∀ a, Refuses (k a)) : Refuses (x >>= k) := by
  refine ⟨.bind hidle fun a => (hk a).idle, fun w => ?_, fun w => ?_⟩
  · rw [perform_bind]
    obtain ⟨j, hj⟩ := hgrows w
    rcases hperform : x.perform w with ⟨r, v⟩
    rw [hperform] at hj
    cases r with
    | error f => exact ⟨j, hj⟩
    | ok a =>
        obtain ⟨j', hj'⟩ := (hk a).grows v
        exact ⟨j ++ j', by rw [hj', hj, List.append_assoc]⟩
  · rw [perform_bind]
    have hfails := hx w
    rcases hperform : x.perform w with ⟨r, v⟩
    rw [hperform] at hfails
    cases r with
    | error f => exact ⟨f, rfl, hfails f rfl⟩
    | ok a => exact (hk a).refuses v

theorem after {x : Session α} {k : α → Session β} (hx : Steady x) (hk : ∀ a, Refuses (k a)) :
    Refuses (x >>= k) :=
  bind hx.idle (fun w => (hx.calm w).imp fun _ h => h.1) hx.uninterrupted hk

/-- A failure may be reported before. -/
theorem log (l : Level) (s : Source) (text : String) {k : Unit → Session β}
    (hk : ∀ a, Refuses (k a)) : Refuses (log l s text >>= k) :=
  bind (.log l s text) (fun _ => ⟨_, rfl⟩) (fun _ _ h => by cases h) hk

end Refuses

/-- The step ends with a failure, and with an interrupt if the condition holds. -/
structure Stops (C : Prop) (x : Session α) : Prop where
  idle : x.Moves Motion.idle
  calm : Calm x
  stops : ∀ w, ∃ f, (x.perform w).1 = .error f ∧ (f = .interrupt ↔ C)

namespace Stops

variable {C : Prop}

/-- An interrupt is passed on. -/
theorem throw (hC : C) : Stops C (throw .interrupt : Session α) :=
  ⟨.throw _, .of_same fun _ => rfl, fun _ => ⟨.interrupt, rfl, by simp [hC]⟩⟩

/-- A step that succeeds may come before. -/
theorem after {x : Session α} {k : α → Session β} (hx : Steady x)
    (hok : ∀ w, ∃ a, (x.perform w).1 = .ok a) (hk : ∀ a, Stops C (k a)) : Stops C (x >>= k) := by
  refine ⟨.bind hx.idle fun a => (hk a).idle, .bind hx.calm fun a => (hk a).calm, fun w => ?_⟩
  obtain ⟨a, ha⟩ := hok w
  rw [perform_bind]
  rcases hperform : x.perform w with ⟨r, v⟩
  rw [hperform] at ha
  obtain rfl : r = .ok a := ha
  exact (hk a).stops v

/-- A step that fails takes the place of the interrupt. -/
theorem replaced {x : Session α} {k : α → Session β} (hx : Steady x)
    (hfails : ∀ w, ∃ f, (x.perform w).1 = .error f) (hC : ¬C) : Stops C (x >>= k) := by
  have heq (w : World) : ∃ f, (x >>= k).perform w = (.error f, (x.perform w).2) ∧
      f.isInterrupt = false := by
    obtain ⟨f, hf⟩ := hfails w
    rw [perform_bind]
    have hplain := hx.uninterrupted w f hf
    rcases hperform : x.perform w with ⟨r, v⟩
    rw [hperform] at hf
    obtain rfl : r = .error f := hf
    exact ⟨f, rfl, hplain⟩
  refine ⟨fun w => ?_, fun w => ?_, fun w => ?_⟩
  · obtain ⟨f, hf, -⟩ := heq w
    rw [hf]
    exact hx.idle w
  · obtain ⟨f, hf, -⟩ := heq w
    rw [hf]
    exact hx.calm w
  · obtain ⟨f, hf, hplain⟩ := heq w
    rw [hf]
    refine ⟨f, rfl, fun h => ?_, fun h => absurd h hC⟩
    rw [h] at hplain
    cases hplain

end Stops

end Session

/-! ### Steps that give account -/

theorem eq_interrupt {f : Failure} (h : f.isInterrupt = true) : f = .interrupt := by
  cases f <;> first | rfl | cases h

section Account

variable {α β : Type} {C : Prop} {w₀ w : World}

/-- **How a step has to end that began in one world and of a run that began in another.**  It ends
with an interrupt if one was met and the condition holds under which it is passed on; it succeeds
only if none was met; and it reports a failure only if it ends with one. -/
structure Accounted (C : Prop) (w₀ w : World) (p : Except Failure α × World) : Prop where
  since : w₀.Since p.2
  clear : ∀ a, p.1 = .ok a → ¬w₀.Interrupted p.2
  interrupted : p.1 = .error .interrupt ↔ w₀.Interrupted p.2 ∧ C
  journal : ∃ j, p.2.journal = w.journal ++ j ∧
    (Reported j → ∃ f, p.1 = .error f ∧ f.isInterrupt = false)

/-- The step ends as it has to, in every run that was not interrupted before. -/
def Session.Accounts (C : Prop) (x : Session α) : Prop :=
  ∀ w₀ w : World, w₀.Undisturbed w → Accounted C w₀ w (x.perform w)

namespace Accounted

/-- A failure that is no interrupt ends a step where none was met. -/
theorem of_error {f : Failure} {v : World} (hv : w₀.Undisturbed v)
    (hf : f.isInterrupt = false) {j : List Record} (hj : v.journal = w.journal ++ j) :
    Accounted C w₀ w ((.error f, v) : Except Failure α × World) := by
  refine ⟨hv.since, (fun a h => by cases h), ⟨?_, fun h => absurd h.1 hv.clear⟩,
    ⟨j, hj, fun _ => ⟨f, rfl, hf⟩⟩⟩
  intro h
  obtain rfl := Except.error.inj h
  cases hf

/-- A step that meets nothing and reports nothing. -/
theorem of_steady {x : Session α} (hx : Steady x) (hw : w₀.Undisturbed w) :
    Accounted C w₀ w (x.perform w) := by
  have hv := hw.idle (hx.idle w)
  obtain ⟨j, hj, hcalm⟩ := hx.calm w
  have hfails := hx.uninterrupted w
  rcases hperform : x.perform w with ⟨r, v⟩
  rw [hperform] at hv hj hfails
  cases r with
  | error f => exact .of_error hv (hfails f rfl) hj
  | ok a =>
      refine ⟨hv.since, fun _ _ => hv.clear,
        ⟨(fun h => by cases h), fun h => absurd h.1 hv.clear⟩,
        ⟨j, hj, fun hreported => absurd hreported hcalm⟩⟩

/-- What comes after a step that succeeded: nothing was reported before. -/
theorem after_ok {C' : Prop} {a : α} {v : World} {p : Except Failure β × World}
    (hx : Accounted C' w₀ w ((.ok a, v) : Except Failure α × World)) (hp : Accounted C w₀ v p) :
    Accounted C w₀ w p := by
  obtain ⟨j, hj, hreport⟩ := hx.journal
  obtain ⟨j', hj', hreport'⟩ := hp.journal
  refine ⟨hp.since, hp.clear, hp.interrupted, j ++ j', ?_, fun hreported => ?_⟩
  · rw [hj', hj, List.append_assoc]
  · rcases reported_append.1 hreported with hfirst | hsecond
    · obtain ⟨f, hf, -⟩ := hreport hfirst
      cases hf
    · exact hreport' hsecond

/-- One step after another, from where the first one began. -/
theorem bind {x : Session α} {k : α → Session β} (hx : Accounted C w₀ w (x.perform w))
    (hk : ∀ a v, x.perform w = (.ok a, v) → w₀.Undisturbed v →
      Accounted C w₀ v ((k a).perform v)) : Accounted C w₀ w ((x >>= k).perform w) := by
  rw [perform_bind]
  rcases hperform : x.perform w with ⟨r, v⟩
  rw [hperform] at hx
  cases r with
  | ok a => exact hx.after_ok (hk a v hperform ⟨hx.since, hx.clear a rfl⟩)
  | error f =>
      obtain ⟨hsince, -, hinterrupted, j, hj, hreport⟩ := hx
      refine ⟨hsince, (fun a h => by cases h), ⟨fun h => hinterrupted.1 ?_, fun h => ?_⟩, j, hj, ?_⟩
      · rw [Except.error.inj h]
      · rw [Except.error.inj (hinterrupted.2 h)]
      · intro hreported
        obtain ⟨g, hg, hfails⟩ := hreport hreported
        obtain rfl := Except.error.inj hg
        exact ⟨_, rfl, hfails⟩

/-- What comes after a failure that was no interrupt, and ends with another one. -/
theorem refused {f : Failure} {v : World} {y : Session β}
    (hx : Accounted True w₀ w ((.error f, v) : Except Failure α × World))
    (hf : f.isInterrupt = false) (hy : Refuses y) : Accounted C w₀ w (y.perform v) := by
  have hv : w₀.Undisturbed v := by
    refine ⟨hx.since, fun h => ?_⟩
    obtain rfl := Except.error.inj (hx.interrupted.2 ⟨h, trivial⟩)
    cases hf
  obtain ⟨j, hj, -⟩ := hx.journal
  have hv' := hv.idle (hy.idle v)
  obtain ⟨j', hj'⟩ := hy.grows v
  obtain ⟨g, hg, hrefused⟩ := hy.refuses v
  rcases hperform : y.perform v with ⟨r, v'⟩
  rw [hperform] at hv' hj' hg
  obtain rfl : r = .error g := hg
  refine .of_error hv' hrefused (j := j ++ j') ?_
  rw [← List.append_assoc, ← hj]
  exact hj'

/-- What comes after an interrupt, and passes it on under the condition. -/
theorem stopped {v : World} {y : Session β}
    (hx : Accounted True w₀ w ((.error .interrupt, v) : Except Failure α × World))
    (hy : Stops C y) : Accounted C w₀ w (y.perform v) := by
  have hmet := (hx.interrupted.1 rfl).1
  obtain ⟨j, hj, hreport⟩ := hx.journal
  obtain ⟨j', hj', hcalm⟩ := hy.calm v
  obtain ⟨g, hg, hpassed⟩ := hy.stops v
  have hidle := hy.idle v
  rcases hperform : y.perform v with ⟨r, v'⟩
  rw [hperform] at hj' hg hidle
  obtain rfl : r = .error g := hg
  refine ⟨hx.since.idle hidle, (fun a h => by cases h), ?_, j ++ j', ?_, ?_⟩
  · rw [World.interrupted_idle hidle, Except.error.injEq, hpassed]
    exact ⟨fun hC => ⟨hmet, hC⟩, fun h => h.2⟩
  · rw [← List.append_assoc, ← hj]
    exact hj'
  · intro hreported
    -- nothing is reported of an interrupt
    rcases reported_append.1 hreported with hfirst | hsecond
    · obtain ⟨f, hf, hfails⟩ := hreport hfirst
      obtain rfl := Except.error.inj hf
      cases hfails
    · exact absurd hsecond hcalm

/-- A step whose failure is handled, from where the step began. -/
theorem handle {x : Session α} {k : Except Failure α → Session β}
    (hx : Accounted True w₀ w (x.perform w)) (hok : ∀ a, Accounts C (k (.ok a)))
    (hfail : ∀ f, f.isInterrupt = false → Refuses (k (.error f)))
    (hstop : Stops C (k (.error .interrupt))) :
    Accounted C w₀ w ((Session.attempt x >>= k).perform w) := by
  rw [perform_bind, perform_attempt]
  rcases hperform : x.perform w with ⟨r, v⟩
  rw [hperform] at hx
  simp only
  cases r with
  | ok a => exact hx.after_ok (hok a w₀ v ⟨hx.since, hx.clear a rfl⟩)
  | error f =>
      cases hf : f.isInterrupt with
      | false => exact hx.refused hf (hfail f hf)
      | true =>
          obtain rfl := eq_interrupt hf
          exact hx.stopped hstop

end Accounted

namespace Session.Accounts

/-- A step that meets nothing and reports nothing gives account. -/
theorem of_steady {x : Session α} (hx : Steady x) : Accounts C x := fun _ _ hw => .of_steady hx hw

/-- **One step after another.** -/
theorem bind {x : Session α} {k : α → Session β} (hx : Accounts C x) (hk : ∀ a, Accounts C (k a)) :
    Accounts C (x >>= k) :=
  fun w₀ w hw => .bind (hx w₀ w hw) fun a v _ hv => hk a w₀ v hv

/-- A steady step comes before. -/
theorem after {x : Session α} {k : α → Session β} (hx : Steady x) (hk : ∀ a, Accounts C (k a)) :
    Accounts C (x >>= k) := bind (of_steady hx) hk

/-- What a decision is known to be can be used for what comes after it. -/
theorem give_bind {r : Except Failure α} {k : α → Session β} (hr : Unbroken r)
    (hk : ∀ a, r = .ok a → Accounts C (k a)) : Accounts C (Session.give r >>= k) := by
  intro w₀ w hw
  refine .bind (.of_steady (.give hr) hw) fun a v hgive hv => ?_
  obtain ⟨ha, rfl⟩ := give_ok hgive
  exact hk a ha w₀ v hv

/-- **A step whose failure is handled.**  An interrupt is passed on under the condition, and any
other failure is followed by a failure. -/
theorem handle {x : Session α} {k : Except Failure α → Session β} (hx : Accounts True x)
    (hok : ∀ a, Accounts C (k (.ok a)))
    (hfail : ∀ f, f.isInterrupt = false → Refuses (k (.error f)))
    (hstop : Stops C (k (.error .interrupt))) : Accounts C (Session.attempt x >>= k) :=
  fun w₀ w hw => .handle (hx w₀ w hw) hok hfail hstop

end Session.Accounts

/-! ### Requests and commands -/

/-- A step that met an answer: it ends with an interrupt if the answer brings one. -/
theorem Accounted.of_answer {r : Except Failure α} {u v : World} (hw : w₀.Undisturbed w)
    (hsince : w₀.Since v) {I : Prop} (hmet : w₀.Interrupted v ↔ w₀.Interrupted w ∨ I)
    (hresult : r = .error .interrupt ↔ I) {j : List Record} (hj : v.journal = u.journal ++ j)
    (hreport : Reported j → ∃ f, r = .error f ∧ f.isInterrupt = false) :
    Accounted True w₀ u (r, v) := by
  have hI : w₀.Interrupted v ↔ I := by rw [hmet, or_iff_right hw.clear]
  refine ⟨hsince, fun a ha => ?_, ?_, j, hj, hreport⟩
  · rw [hI, ← hresult]
    intro h
    rw [show r = .ok a from ha] at h
    cases h
  · rw [and_true, hI]
    exact hresult

/-- The answer was met in one step, and nothing was noted. -/
theorem Accounted.of_silent {r : Except Failure α} {v : World} (hw : w₀.Undisturbed w)
    (hsince : w₀.Since v) {I : Prop} (hmet : w₀.Interrupted v ↔ w₀.Interrupted w ∨ I)
    (hresult : r = .error .interrupt ↔ I) (hjournal : v.journal = w.journal) :
    Accounted True w₀ w (r, v) :=
  of_answer hw hsince hmet hresult (j := []) (by rw [List.append_nil, hjournal])
    fun h => absurd h not_reported_nil

namespace Session

/-- **A request** that is sent gives account. -/
theorem send_accounts (q : Request) : Accounts True (send q) := by
  intro w₀ w hw
  rw [perform_send]
  cases hanswers : w.answers with
  | nil =>
      refine .of_silent hw (hw.since.exchange rfl (by simp [hanswers]) rfl rfl)
        (hw.since.interrupted_exchange rfl rfl) ?_ rfl
      simp [hanswers, noAnswer]
  | cons a rest =>
      cases a with
      | failure f =>
          refine .of_silent hw (hw.since.exchange rfl (by simp [hanswers]) rfl rfl)
            (hw.since.interrupted_exchange rfl rfl) ?_ rfl
          simp [hanswers, Answer.Interrupts]
      | reply r =>
          refine .of_silent hw (hw.since.exchange rfl (by simp [hanswers]) rfl rfl)
            (hw.since.interrupted_exchange rfl rfl) ?_ rfl
          simp [hanswers, Answer.Interrupts, Exchange.opened]

/-- **A command** that is started gives account. -/
theorem execute_accounts (command : List String) : Accounts True (execute command) := by
  intro w₀ w hw
  rw [perform_execute]
  cases hreplies : w.shellReplies with
  | nil =>
      refine .of_silent hw (hw.since.command rfl rfl rfl (by simp [hreplies]))
        (hw.since.interrupted_command rfl rfl) ?_ rfl
      simp [hreplies, noCommand]
  | cons reply rest =>
      refine .of_silent hw (hw.since.command rfl rfl rfl (by simp [hreplies]))
        (hw.since.interrupted_command rfl rfl) ?_ rfl
      cases hfailure : reply.failure with
      | none => simp [hreplies, hfailure]
      | some f => simp [hreplies, hfailure]

end Session

end Account

end ReleaseFetch
