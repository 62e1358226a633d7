/-
**Responses that are closed.**

A download closes every response that it is given, on whatever way it ends, but for one: between a
success and the part that takes care of its response stands the preparation of the destination, and
if that fails, the response stays open.  How the preparation ends depends on the disk alone, which a
download leaves as it was until then, so that the exception is known before the first request.

Main definitions:

* `ReleaseFetch.Exchange.Settled` — an exchange that leaves no response open;
* `ReleaseFetch.Stream.LeavesOpen` — the way to end that leaves a response open;
* `ReleaseFetch.Stream.Closes` — the answers and the exchanges of a chain, and which are settled.

Main results:

* `ReleaseFetch.Stream.closes_keep` — keeping a response closes it, if its destination is prepared;
* `ReleaseFetch.Stream.follow_closes` — a chain, by induction;
* `ReleaseFetch.Stream.download_closes` — which responses of a download are closed.
-/

import ReleaseFetch.Proofs.Transfer.Deciding

set_option autoImplicit false

namespace ReleaseFetch

open Disk Session

/-! ### Traffic -/

/-- The exchange leaves no response open. -/
def Exchange.Settled (x : Exchange) : Prop := x.answered = true → x.closed = true

namespace Stream

variable {r : Response} {temporary destination : Path} {w w' : World}

/-! ### One request -/

section Request

variable {c : Client} {h : Host} {o : Options} {url : String} {f : Failure}

/-- A request that fails takes a failure, or no answer is left. -/
theorem ask_error {q : Request} {note : String}
    (hout : (ask q destination note).perform w = (.error f, w')) :
    ∃ used, w.answers = used ++ w'.answers ∧
      w'.exchanges = w.exchanges ++ [Exchange.opened q false] ∧
      ∀ a ∈ used, ∃ g, a = .failure g := by
  -- what is done about the failure is not seen by the network
  have hlocal (g : Failure) : (if g.isNetwork then
      Files.discard destination >>= fun _ =>
        (fail (.transport s!"Download of {q.url} failed: {g.message}") : Session Response)
      else throw g).Local := by
    split
    · exact .bind (Files.discard_local _) fun _ => .fail _
    · exact .throw g
  have hfailed {g : Failure} {v : World}
      (hv : (if g.isNetwork then
        Files.discard destination >>= fun _ =>
          (fail (.transport s!"Download of {q.url} failed: {g.message}") : Session Response)
        else throw g).perform v = (.error f, w')) :
      w'.answers = v.answers ∧ w'.exchanges = v.exchanges := by
    have htraffic := (hlocal g).traffic v
    rw [hv] at htraffic
    exact ⟨congrArg Traffic.answers htraffic, congrArg Traffic.exchanges htraffic⟩
  unfold ask at hout
  rw [perform_bind, perform_log] at hout
  simp only at hout
  rw [perform_bind, perform_attempt, perform_send] at hout
  rcases hanswers : w.answers with _ | ⟨g | r, rest⟩
  · simp only [hanswers] at hout
    obtain ⟨ha, hx⟩ := hfailed hout
    exact ⟨[], ha.symm, hx, fun a ha => by cases ha⟩
  · simp only [hanswers] at hout
    cases hout
  · simp only [hanswers] at hout
    obtain ⟨ha, hx⟩ := hfailed hout
    refine ⟨[.failure r], by rw [ha]; rfl, hx, fun a ha => ?_⟩
    exact ⟨_, List.mem_singleton.1 ha⟩

/-- A hop that fails is given no response. -/
theorem hop_error (hout : (hop c h o destination url).perform w = (.error f, w')) :
    ∃ used xs, w.answers = used ++ w'.answers ∧ w'.exchanges = w.exchanges ++ xs ∧
      (∀ a ∈ used, ∃ g, a = .failure g) ∧ ∀ x ∈ xs, x.answered = false := by
  have hnothing {v : World} (hv : v.traffic = w.traffic) :
      ∃ used xs, w.answers = used ++ v.answers ∧ v.exchanges = w.exchanges ++ xs ∧
        (∀ a ∈ used, ∃ g, a = Answer.failure g) ∧ ∀ x ∈ xs, x.answered = false := by
    refine ⟨[], [], (congrArg Traffic.answers hv).symm, ?_, by simp, by simp⟩
    rw [List.append_nil]
    exact congrArg Traffic.exchanges hv
  obtain ⟨j, hproxy⟩ := Proxy.forRequest_yields h url o
  rw [hop_eq, perform_bind, perform_give] at hout
  cases hheaders : o.headers.scopedTo url o.trustedHost with
  | error g =>
      rw [hheaders] at hout
      obtain ⟨-, rfl⟩ := Prod.mk.inj hout
      exact hnothing rfl
  | ok headers =>
      rw [hheaders] at hout
      simp only at hout
      rw [perform_bind, hproxy] at hout
      cases hchoice : Proxy.ofRequest h url o with
      | error g =>
          rw [hchoice] at hout
          obtain ⟨-, rfl⟩ := Prod.mk.inj hout
          exact hnothing rfl
      | ok proxy =>
          rw [hchoice] at hout
          simp only at hout
          rw [perform_bind, perform_give] at hout
          cases hshown : shownProxy proxy with
          | error g =>
              rw [hshown] at hout
              obtain ⟨-, rfl⟩ := Prod.mk.inj hout
              exact hnothing rfl
          | ok shown =>
              rw [hshown] at hout
              obtain ⟨used, ha, hx, hused⟩ := ask_error hout
              refine ⟨used, _, ha, hx, hused, fun x hx => ?_⟩
              rw [List.mem_singleton.1 hx]
              rfl

end Request

/-! ### A chain -/

/-- **The way to end that leaves a response open**: the last answer is a success, and its
destination cannot be prepared. -/
def LeavesOpen (destination : Path) (w : World) (used : List Answer) (f : Failure) : Prop :=
  (∃ r, used.getLast? = some (.reply r) ∧ r.status = 200) ∧
    ((prepare destination).perform w).1 = .error f

theorem not_leavesOpen_nil {f : Failure} : ¬LeavesOpen destination w [] f := by
  rintro ⟨⟨r, hr, -⟩, -⟩
  cases hr

/-- A reply that is no success goes before the answers that decide. -/
theorem leavesOpen_cons {v : World} {reply : Reply} {used : List Answer} {f : Failure}
    (hstatus : reply.status ≠ 200) (hv : v.disk = w.disk) :
    LeavesOpen destination w (.reply reply :: used) f ↔ LeavesOpen destination v used f := by
  unfold LeavesOpen
  rw [(prepare_ofDisk destination).result hv]
  refine and_congr_left fun _ => ?_
  cases used with
  | nil =>
      refine iff_of_false ?_ (by rintro ⟨r, hr, -⟩; cases hr)
      rintro ⟨r, hr, hsuccess⟩
      obtain rfl := Answer.reply.inj (Option.some.inj hr)
      exact hstatus hsuccess
  | cons a rest => rw [List.getLast?_cons_cons]

/-- What is closed in the end, if the exchanges of a chain are these. -/
structure Closes (destination : Path) (w w' : World) (out : Except Failure Unit)
    (used : List Answer) (xs : List Exchange) : Prop where
  answers : w.answers = used ++ w'.answers
  exchanges : w'.exchanges = w.exchanges ++ xs
  before : ∀ x ∈ xs.dropLast, x.Settled
  settled : (∀ x ∈ xs, x.Settled) ↔ ¬∃ f, LeavesOpen destination w used f
  failed : ∀ f, LeavesOpen destination w used f → out = .error f

/-- Where every exchange is settled and no response can be left open, nothing more is to be said. -/
theorem closes_of_settled {out : Except Failure Unit} {used : List Answer} {xs : List Exchange}
    (ha : w.answers = used ++ w'.answers) (hx : w'.exchanges = w.exchanges ++ xs)
    (hsettled : ∀ x ∈ xs, x.Settled) (hclosed : ∀ f, ¬LeavesOpen destination w used f) :
    Closes destination w w' out used xs where
  answers := ha
  exchanges := hx
  before x hmem := hsettled x (List.dropLast_subset _ hmem)
  settled := iff_of_true hsettled fun ⟨f, hf⟩ => hclosed f hf
  failed f hf := absurd hf (hclosed f)

/-- One more reply before, whose response is closed. -/
theorem Closes.cons {v : World} {out : Except Failure Unit} {used : List Answer}
    {xs : List Exchange} {reply : Reply} {x : Exchange} (h : Closes destination v w' out used xs)
    (hanswered : Answered reply x w v) (hstatus : reply.status ≠ 200) (hsettled : x.Settled) :
    Closes destination w w' out (.reply reply :: used) (x :: xs) where
  answers := by rw [hanswered.answers, h.answers, List.cons_append]
  exchanges := by
    rw [h.exchanges, hanswered.exchanges, List.append_assoc, List.singleton_append]
  before y hy := by
    cases xs with
    | nil => cases hy
    | cons z zs =>
        rw [List.dropLast_cons_cons] at hy
        rcases List.mem_cons.1 hy with rfl | hy
        · exact hsettled
        · exact h.before y hy
  settled := by
    simp only [leavesOpen_cons hstatus hanswered.disk, ← h.settled, List.forall_mem_cons, hsettled,
      true_and]
  failed f hf := h.failed f ((leavesOpen_cons hstatus hanswered.disk).1 hf)

/-- A chain in which nothing happens closes what it has to. -/
theorem closes_nil (out : Except Failure Unit) : Closes destination w w out [] [] :=
  closes_of_settled rfl (List.append_nil _).symm (by simp) fun _ => not_leavesOpen_nil

/-- A success is kept, and its response closed if there is a place for its body. -/
theorem closes_keep {v : World} {q : Request} {out : Except Failure Unit}
    (hanswered : Answered r.reply (Exchange.opened q true) w v)
    (hnumber : r.exchange = w.exchanges.length) (hstatus : r.reply.status = 200)
    (hkeep : (keep r destination).perform v = (out, w')) :
    ∃ xs, Closes destination w w' out [.reply r.reply] xs := by
  have hsame := (prepare_ofDisk destination).result hanswered.disk
  rcases keep_closes r destination v with ⟨f, hprepare, herror, htraffic⟩ |
    ⟨⟨temporary, hprepare⟩, htraffic⟩
  · rw [hkeep] at herror htraffic
    have hopen : LeavesOpen destination w [.reply r.reply] f :=
      ⟨⟨r.reply, rfl, hstatus⟩, hsame.symm.trans hprepare⟩
    refine ⟨[Exchange.opened q true], ?_, ?_, by simp, ?_, ?_⟩
    · exact hanswered.answers.trans (congrArg (_ :: ·) (congrArg Traffic.answers htraffic).symm)
    · exact (congrArg Traffic.exchanges htraffic).trans hanswered.exchanges
    · refine iff_of_false (fun hall => ?_) fun hnone => hnone ⟨f, hopen⟩
      cases hall _ (List.mem_singleton_self _) rfl
    · rintro g ⟨-, hg⟩
      obtain rfl := Except.error.inj (hprepare.symm.trans (hsame.trans hg))
      exact herror
  · rw [hkeep] at htraffic
    refine ⟨[{ Exchange.opened q true with chunkSize := some chunkSize, closed := true }],
      closes_of_settled ?_ ((congrArg Traffic.exchanges htraffic).trans ?_) ?_ ?_⟩
    · exact hanswered.answers.trans (congrArg (_ :: ·) (congrArg Traffic.answers htraffic).symm)
    · have hmodify := modify_last w.exchanges (Exchange.opened q true) fun x =>
        { x with chunkSize := some chunkSize, closed := true }
      rw [← hnumber, ← hanswered.exchanges] at hmodify
      exact hmodify
    · intro x hmem
      rw [List.mem_singleton.1 hmem]
      exact fun _ => rfl
    · rintro g ⟨-, hg⟩
      rw [← hsame, hprepare] at hg
      cases hg

/-- **Which responses of a chain are closed.** -/
theorem follow_closes (c : Client) (h : Host) (o : Options) (destination : Path) (first : String)
    (limit : Int) (left : Nat) (url : String) {out : Except Failure Unit}
    (hout : (follow c h o destination first limit left url).perform w = (out, w')) :
    ∃ used xs, Closes destination w w' out used xs := by
  -- induction on the requests that may still be sent; until the last one the disk stays as it is
  induction left generalizing url w with
  | zero =>
      obtain ⟨-, rfl⟩ := Prod.mk.inj hout
      exact ⟨[], [], closes_nil out⟩
  | succ left ih =>
      cases follow_turn hout with
      | refused hask =>
          obtain ⟨used, xs, ha, hx, hused, hxs⟩ := hop_error hask
          refine ⟨used, xs, closes_of_settled ha hx (fun x hmem hanswered => ?_) ?_⟩
          · rw [hxs x hmem] at hanswered
            cases hanswered
          · rintro g ⟨⟨r, hr, -⟩, -⟩
            obtain ⟨g', hg'⟩ := hused _ (List.mem_of_getLast? hr)
            cases hg'
      | reported hanswered hstatus =>
          exact ⟨_, _, (closes_nil _).cons hanswered hstatus fun _ => rfl⟩
      | passed hanswered _ _ hredirect _ _ hrest =>
          have hstatus : _ ≠ (200 : Int) := hredirect.trans_ne (by decide)
          obtain ⟨used, xs, hcloses⟩ := ih _ hrest
          exact ⟨_, _, hcloses.cons hanswered hstatus fun _ => rfl⟩
      | kept r hanswered _ _ hnumber hsuccess hkeeps journal =>
          obtain ⟨xs, hcloses⟩ := closes_keep hanswered hnumber hsuccess hkeeps
          exact ⟨_, xs, hcloses.answers, hcloses.exchanges, hcloses.before, hcloses.settled,
            hcloses.failed⟩

/-! ### A download -/

/-- **Every response of a download is closed, but for one**: all that come before the last one are,
whatever the download ends with, and the last one is unless it is a success whose destination cannot
be prepared.  Whether that can be done is known from the disk before the download; if not, that is
what the download fails with. -/
theorem download_closes (c : Client) (h : Host) (limit : Int) (url : String) (destination : Path)
    (o : Options) (w : World) :
    ∃ used xs, w.answers =
        used ++ ((download c h limit url destination o).perform w).2.answers ∧
      ((download c h limit url destination o).perform w).2.exchanges = w.exchanges ++ xs ∧
      (∀ x ∈ xs.dropLast, x.Settled) ∧
      ((∀ x ∈ xs, x.Settled) ↔ ¬∃ f, LeavesOpen destination w used f) ∧
      ∀ f, LeavesOpen destination w used f →
        ((download c h limit url destination o).perform w).1 = .error f := by
  obtain ⟨used, xs, hcloses⟩ := follow_closes c h o destination url limit (limit + 1).toNat url
    (w := w) rfl
  exact ⟨used, xs, hcloses.answers, hcloses.exchanges, hcloses.before, hcloses.settled,
    hcloses.failed⟩

/-- A disk with a file where the directory of a download should be. -/
def blockedDisk : Disk := ⟨[(["dl"], .file [0] 0o644)], []⟩

/-- A response with a body. -/
def bodyAnswer : Answer := .reply ⟨200, [], "", [.bytes [1]]⟩

/-- **A response whose destination cannot be prepared stays open.** -/
theorem download_leaves_open :
    ((download .own ⟨"linux", "x86_64", []⟩ 5 "https://a.org/x" ⟨.here, ["dl", "tool"]⟩
        ⟨[], none, defaultTrustedHost, none⟩).perform
          (World.fresh blockedDisk [bodyAnswer])).2.exchanges.map
            (fun x => (x.answered, x.closed)) = [(true, false)] := by
  decide +kernel

end Stream

end ReleaseFetch
