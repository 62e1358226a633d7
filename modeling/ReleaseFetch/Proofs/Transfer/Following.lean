/-
**Following redirects to a file.**

A download takes one answer for each request it sends.  When it succeeds, the answers it took are a
chain: every reply but the last names the next URL, the last one is a success, and the destination
holds its body.  When it fails, no file stands at the destination that was not there before.

Main definitions:

* `ReleaseFetch.Motion.spares` — a motion after which no new file stands at a path;
* `ReleaseFetch.Stream.Chain` — replies that lead from a URL to a success;
* `ReleaseFetch.Stream.Arrived` — the traffic of a download that succeeded;
* `ReleaseFetch.Stream.Turn` — what one request of a chain comes to.

Main results:

* `ReleaseFetch.Stream.prepare_ofDisk` — preparing a destination is about the disk alone;
* `ReleaseFetch.Stream.keep_closes` — keeping a response closes it, if its destination is prepared;
* `ReleaseFetch.Stream.hop_ok` — a hop sends one request, with the headers that its URL may see;
* `ReleaseFetch.Stream.follow_turn` — a chain takes one turn after the other;
* `ReleaseFetch.Stream.follow_spec` — what a download leaves behind.
-/

import Mathlib.Data.List.Forall2
import ReleaseFetch.Proofs.Session.Local
import ReleaseFetch.Proofs.Transfer.Keeping

set_option autoImplicit false

namespace ReleaseFetch

open Disk Session

/-! ### No new file -/

/-- Files change at one path only, and what stands there afterwards stood there before. -/
def Motion.spares (p : Path) : Motion where
  rel w w' := w.disk.Plain →
    Edited (· = w.disk.locationOf p) w.disk w'.disk ∧
      ∀ b m, w'.disk.get? (w.disk.locationOf p) = some (.file b m) →
        w.disk.get? (w.disk.locationOf p) = some (.file b m)
  refl _ hw := ⟨Edited.refl hw, fun _ _ => id⟩
  trans := by
    intro u v w h h' hu
    obtain ⟨hedit, hfile⟩ := h hu
    obtain ⟨hedit', hfile'⟩ := h' hedit.plain
    rw [hedit.locationOf] at hedit' hfile'
    exact ⟨hedit.trans hedit', fun b m hb => hfile b m (hfile' b m hb)⟩
  journal _ _ hw := ⟨Edited.refl hw, fun _ _ => id⟩

/-- On the same disk there is no new file. -/
theorem Motion.spares_of_disk {p : Path} {w w' : World} (h : w'.disk = w.disk) :
    (Motion.spares p).rel w w' := by
  intro hw
  rw [h]
  exact ⟨Edited.refl hw, fun _ _ => id⟩

/-- A step that leaves the disk alone makes no file. -/
theorem Session.Moves.spares {α : Type} {p : Path} {x : Session α} (hx : x.Moves Motion.still) :
    x.Moves (Motion.spares p) :=
  fun w => Motion.spares_of_disk (hx w)

theorem Files.discard_spares (p : Path) : (discard p).Moves (Motion.spares p) := by
  intro w hw
  refine ⟨(discard_edits (P := (· = p)) rfl w hw).mono ?_, fun b m hb => ?_⟩
  · rintro l ⟨q, rfl, rfl⟩
    rfl
  · rcases discard_disk p w with h | ⟨-, h⟩
    · obtain ⟨hopen, heq⟩ := unlink_ok hw h
      rw [heq, get?_erase _ _ _ hopen.ne_nil, if_pos rfl] at hb
      cases hb
    · rwa [h] at hb

/-! ### The choice of a proxy -/

namespace Proxy

/-- The choice of a proxy shows in the journal only. -/
theorem forRequest_quiet (h : Host) (url : String) (o : Options) : (forRequest h url o).Quiet := by
  unfold forRequest
  split
  · exact .pure _
  · refine .bind (.give _) ?_
    intro choice
    cases choice with
    | direct => exact .pure _
    | through proxy => exact .pure _
    | excepted hostname => exact .bind (.log _ _ _) fun _ => .pure _

end Proxy

namespace Stream

/-! ### Keeping a response, seen from the network -/

theorem openPartial_ofDisk (directory destination : Path) (left : Nat) :
    (openPartial directory destination left).OfDisk := by
  intro w v hv
  induction left with
  | zero => exact OfDisk.throw _ w v hv
  | succ left ih =>
      unfold openPartial
      simp only [perform_bind, perform_get, perform_give, hv]
      cases w.disk.createNew (partialPath directory destination (attemptLimit - (left + 1))) with
      | error f => exact Prod.ext rfl (by rw [← hv])
      | ok made =>
          cases made with
          | none => exact ih
          | some e => rfl

/-- **Preparing a destination is about the disk alone.** -/
theorem prepare_ofDisk (destination : Path) : (prepare destination).OfDisk :=
  .bind (Files.ensureDirectory_ofDisk _) fun _ => .bind (.look _) fun _ => openPartial_ofDisk _ _ _

theorem receive_local (p : Path) (chunks : List Chunk) : (receive p chunks).Local := by
  induction chunks with
  | nil => exact .pure _
  | cons c rest ih =>
      cases c with
      | failure f => exact .throw f
      | bytes b => exact .bind (.change _) fun _ => ih

theorem abandon_local (destination : Path) (f : Failure) : (abandon destination f).Local := by
  unfold abandon
  cases f.isInterrupt with
  | true => exact .throw f
  | false =>
      simp only [Bool.false_eq_true, if_false]
      refine .bind (.log _ _ _) fun _ => .bind (Files.discard_local _) ?_
      intro _
      cases f.isNetwork with
      | true => exact .fail _
      | false => exact .throw f

/-- A motion holds of keeping a response if it holds of local steps, and of reading and closing. -/
theorem keep_moves {T : Motion} (hlocal : ∀ {α : Type} {x : Session α}, x.Local → x.Moves T)
    (hclose : ∀ r, (close r).Moves T) (hread : ∀ r size, (startReading r size).Moves T)
    (r : Response) (destination : Path) : (keep r destination).Moves T := by
  rw [keep_prepare]
  refine .bind (hlocal (prepare_ofDisk destination).isLocal) fun temporary => ?_
  have hfill : (fill r temporary destination).Moves T :=
    .bind (hread r chunkSize) fun _ => .bind (hlocal (receive_local _ _)) fun _ =>
      hlocal (.change _)
  exact conclude_moves (settle_moves hfill fun f => hlocal (abandon_local destination f))
    (hclose r) (hlocal (Files.discard_local _))

/-- What the network sees of a body that is received: it is read in parts, however it ends. -/
theorem fill_traffic (r : Response) (temporary destination : Path) (w : World) :
    ((fill r temporary destination).perform w).2.traffic = { w.traffic with
      exchanges := w.exchanges.modify r.exchange fun x =>
        { x with chunkSize := some chunkSize } } := by
  -- only the first step is seen: the bytes are written and moved on the disk
  have hlocal : (receive temporary r.reply.chunks >>= fun _ =>
      change (·.replace temporary destination)).Local :=
    .bind (receive_local _ _) fun _ => .change _
  exact hlocal.traffic ((startReading r chunkSize).perform w).2

/-- **What the network sees once there is a private file**: the response is read in parts and
closed, whatever becomes of its body. -/
theorem conclude_traffic (r : Response) (temporary destination : Path) (w : World) :
    ((conclude r temporary destination).perform w).2.traffic = { w.traffic with
      exchanges := w.exchanges.modify r.exchange fun x =>
        { x with chunkSize := some chunkSize, closed := true } } := by
  have hsettle : ((settle r temporary destination).perform w).2.traffic =
      ((fill r temporary destination).perform w).2.traffic := by
    unfold settle
    rw [perform_bind, perform_attempt]
    cases ((fill r temporary destination).perform w).1 with
    | ok u => rfl
    | error f => exact (abandon_local destination f).traffic _
  have hend : (conclude r temporary destination).perform w =
      (Files.discard temporary >>= fun _ =>
        give ((settle r temporary destination).perform w).1).perform
          ((close r).perform ((settle r temporary destination).perform w).2).2 := rfl
  have hlocal : (Files.discard temporary >>= fun _ =>
      give ((settle r temporary destination).perform w).1).Local :=
    .bind (Files.discard_local _) fun _ => .give _
  have hclose : ((close r).perform ((settle r temporary destination).perform w).2).2.traffic =
      { ((settle r temporary destination).perform w).2.traffic with
        exchanges := ((settle r temporary destination).perform w).2.traffic.exchanges.modify
          r.exchange fun x => { x with closed := true } } := rfl
  rw [hend, hlocal.traffic, hclose, hsettle, fill_traffic, List.modify_modify_eq]
  rfl

/-- **Keeping a response closes it, if its destination is prepared**, and leaves it alone if not. -/
theorem keep_closes (r : Response) (destination : Path) (w : World) :
    (∃ f, ((prepare destination).perform w).1 = .error f ∧
        ((keep r destination).perform w).1 = .error f ∧
        ((keep r destination).perform w).2.traffic = w.traffic) ∨
      (∃ temporary, ((prepare destination).perform w).1 = .ok temporary) ∧
        ((keep r destination).perform w).2.traffic = { w.traffic with
          exchanges := w.exchanges.modify r.exchange fun x =>
            { x with chunkSize := some chunkSize, closed := true } } := by
  have htraffic := (prepare_ofDisk destination).isLocal.traffic w
  rw [keep_prepare, perform_bind]
  rcases hprepare : (prepare destination).perform w with ⟨result, v⟩
  rw [hprepare] at htraffic
  cases result with
  | error f => exact .inl ⟨f, rfl, rfl, htraffic⟩
  | ok temporary =>
      refine .inr ⟨⟨temporary, rfl⟩, ?_⟩
      have hexchanges : v.exchanges = w.exchanges := congrArg Traffic.exchanges htraffic
      simp only
      rw [conclude_traffic, htraffic, hexchanges]

/-- What the network sees of a response that is kept: it is read in parts, and closed. -/
theorem keep_traffic {r : Response} {destination : Path} {w w' : World}
    (h : (keep r destination).perform w = (.ok (), w')) :
    w'.traffic = { w.traffic with
      exchanges := w.exchanges.modify r.exchange fun x =>
        { x with chunkSize := some chunkSize, closed := true } } := by
  rcases keep_closes r destination w with ⟨f, -, herror, -⟩ | ⟨-, htraffic⟩
  · rw [h] at herror
    cases herror
  · rwa [h] at htraffic

/-! ### One hop -/

/-- A proxy as the journal shows it, also where there is none. -/
def shownProxy : Option String → Except Failure String
  | some p => Proxy.redacted p
  | none => .ok "None"

/-- The part of a hop that sends the request. -/
def ask (q : Request) (destination : Path) (note : String) : Session Response := do
  log .debug .download note
  match ← attempt (send q) with
  | .ok response => return response
  | .error f =>
    if f.isNetwork then
      let _ ← Files.discard destination
      fail (.transport s!"Download of {q.url} failed: {f.message}")
    else throw f

/-- A hop decides on its headers and its proxy, and sends one request. -/
theorem hop_eq (c : Client) (h : Host) (o : Options) (destination : Path) (url : String) :
    hop c h o destination url = (do
      let headers ← give (o.headers.scopedTo url o.trustedHost)
      let proxy ← Proxy.forRequest h url o
      let shown ← give (shownProxy proxy)
      ask (c.request url headers proxy o true) destination
        s!"Download options: headers={headers.redacted.shown} proxy={shown}") := by
  unfold hop
  congr 1
  funext headers
  congr 1
  funext proxy
  cases proxy <;> rfl

/-- The request is sent, and takes the next answer. -/
theorem ask_ok {q : Request} {destination : Path} {note : String} {r : Response} {w w' : World}
    (h : (ask q destination note).perform w = (.ok r, w')) :
    w.answers = .reply r.reply :: w'.answers ∧ r.exchange = w.exchanges.length ∧
      w'.exchanges = w.exchanges ++ [Exchange.opened q true] ∧ w'.disk = w.disk := by
  unfold ask at h
  obtain ⟨_, w₁, h₁, h⟩ := bind_ok h
  obtain ⟨result, w₂, h₂, h⟩ := bind_ok h
  obtain rfl := (Prod.mk.inj h₁).2
  have hsend := attempt_ok h₂
  cases result with
  | error f =>
      simp only at h
      split at h
      · obtain ⟨_, w₃, -, hfail⟩ := bind_ok h
        cases hfail
      · cases h
  | ok response =>
      obtain ⟨heq, rfl⟩ := Prod.mk.inj h
      obtain rfl := Except.ok.inj heq
      have hdisk := send_still q { w with
        journal := w.journal ++ [⟨.debug, .download, note, false⟩] }
      rw [hsend] at hdisk
      obtain ⟨ha, hx, hw⟩ := send_ok hsend
      refine ⟨ha, hx, ?_, hdisk⟩
      rw [hw]

/-- A hop that succeeds sent one request, with the headers that its URL may see. -/
theorem hop_ok {c : Client} {h : Host} {o : Options} {destination : Path} {url : String}
    {r : Response} {w w' : World}
    (hok : (hop c h o destination url).perform w = (.ok r, w')) :
    ∃ headers proxy, o.headers.scopedTo url o.trustedHost = .ok headers ∧
      w.answers = .reply r.reply :: w'.answers ∧ r.exchange = w.exchanges.length ∧
      w'.exchanges = w.exchanges ++
        [Exchange.opened (c.request url headers proxy o true) true] ∧
      w'.disk = w.disk := by
  rw [hop_eq] at hok
  obtain ⟨headers, w₁, h₁, hproxy⟩ := bind_ok hok
  obtain ⟨proxy, w₂, h₂, hshown⟩ := bind_ok hproxy
  obtain ⟨shown, w₃, h₃, hask⟩ := bind_ok hshown
  obtain ⟨hscoped, rfl⟩ := give_ok h₁
  obtain ⟨-, rfl⟩ := give_ok h₃
  have htraffic := (Proxy.forRequest_quiet h url o).isLocal.traffic w₁
  have hdisk := (Proxy.forRequest_quiet h url o).moves (T := Motion.still) w₁
  rw [h₂] at htraffic hdisk
  have hanswers : w₃.answers = w₁.answers := congrArg Traffic.answers htraffic
  have hexchanges : w₃.exchanges = w₁.exchanges := congrArg Traffic.exchanges htraffic
  obtain ⟨ha, hx, hsent, hdisk'⟩ := ask_ok hask
  rw [hanswers] at ha
  rw [hexchanges] at hx hsent
  exact ⟨headers, proxy, hscoped, ha, hx, hsent, hdisk'.trans hdisk⟩

/-- A motion holds of a hop if it holds of sending what the URL may see, and of discarding. -/
theorem hop_moves {T : Motion} {c : Client} {h : Host} {o : Options} {destination : Path}
    {url : String}
    (hsend : ∀ headers proxy, o.headers.scopedTo url o.trustedHost = .ok headers →
      (send (c.request url headers proxy o true)).Moves T)
    (hdiscard : (Files.discard destination).Moves T) :
    (hop c h o destination url).Moves T := by
  rw [hop_eq]
  refine .give_bind fun headers hscoped => .bind (Proxy.forRequest_quiet h url o).moves
    fun proxy => .bind (.give _) fun shown => .bind (.log _ _ _) fun _ =>
      .bind (.attempt (hsend headers proxy hscoped)) ?_
  intro result
  cases result with
  | ok r => exact .pure _
  | error f =>
      simp only
      split
      · exact .bind hdiscard fun _ => .fail _
      · exact .throw f

theorem hop_spares (c : Client) (h : Host) (o : Options) (destination : Path) (url : String) :
    (hop c h o destination url).Moves (Motion.spares destination) :=
  hop_moves (fun _ _ _ => (send_still _).spares) (Files.discard_spares destination)

/-- A motion holds of a judgement if it holds of closing a response. -/
theorem judge_moves {T : Motion} (hclose : ∀ r, (close r).Moves T) (url : String) (r : Response) :
    (judge url r).Moves T := by
  unfold judge
  refine .bind (.log _ _ _) ?_
  intro _
  split
  · refine .bind (hclose r) ?_
    intro _
    split
    · exact .fail _
    · exact .bind (.give _) fun next => .bind (.log _ _ _) fun _ => .pure _
  · split
    · exact .bind (hclose r) fun _ => .fail _
    · exact .pure _

/-- A hop that is judged to go on was redirected and is closed; one that is judged to be the end
is a success. -/
theorem judge_ok {url : String} {r : Response} {n : Next} {w w' : World}
    (hok : (judge url r).perform w = (.ok n, w')) :
    w'.disk = w.disk ∧ w'.answers = w.answers ∧
      match n with
      | .go next => r.reply.status = redirectStatus ∧
          w'.exchanges = w.exchanges.modify r.exchange (fun x => { x with closed := true }) ∧
          ∃ location, (r.reply.headers.find? "location").filter (· != "") = some location ∧
            Url.join url location = .ok next
      | .finish r' => r' = r ∧ r.reply.status = 200 ∧ w'.exchanges = w.exchanges := by
  unfold judge at hok
  obtain ⟨_, w₁, h₁, hstatus⟩ := bind_ok hok
  obtain rfl := (Prod.mk.inj h₁).2
  -- a redirect is closed and its location is read; anything else but a success fails
  split at hstatus
  · next hredirect =>
    obtain ⟨_, w₂, h₂, hlocation⟩ := bind_ok hstatus
    obtain rfl := (Prod.mk.inj h₂).2
    split at hlocation
    · cases hlocation
    · next location hfound =>
      obtain ⟨next, w₃, h₃, hlog⟩ := bind_ok hlocation
      obtain ⟨_, w₄, h₄, hdone⟩ := bind_ok hlog
      obtain ⟨hjoin, rfl⟩ := give_ok h₃
      obtain rfl := (Prod.mk.inj h₄).2
      obtain ⟨heq, rfl⟩ := Prod.mk.inj hdone
      obtain rfl := Except.ok.inj heq
      exact ⟨rfl, rfl, hredirect, rfl, location, hfound, hjoin⟩
  · split at hstatus
    · obtain ⟨_, w₂, h₂, hfail⟩ := bind_ok hstatus
      cases hfail
    · next hsuccess =>
      obtain ⟨heq, rfl⟩ := Prod.mk.inj hstatus
      obtain rfl := Except.ok.inj heq
      exact ⟨rfl, rfl, rfl, by simpa using hsuccess, rfl⟩

/-- A response that is reported is closed first, and is no success. -/
theorem judge_error {url : String} {r : Response} {f : Failure} {w w' : World}
    (hout : (judge url r).perform w = (.error f, w')) :
    r.reply.status ≠ 200 ∧ w'.disk = w.disk ∧ w'.answers = w.answers ∧
      w'.exchanges = w.exchanges.modify r.exchange fun x => { x with closed := true } := by
  unfold judge at hout
  rw [perform_bind, perform_log] at hout
  simp only at hout
  split at hout
  · next hredirect =>
    have hstatus : r.reply.status ≠ 200 := by
      rw [hredirect]
      decide
    rw [perform_bind, perform_close] at hout
    simp only at hout
    split at hout
    · obtain ⟨-, rfl⟩ := Prod.mk.inj hout
      exact ⟨hstatus, rfl, rfl, rfl⟩
    · rw [perform_bind, perform_give] at hout
      cases hjoin : Url.join url _ with
      | error g =>
          rw [hjoin] at hout
          obtain ⟨-, rfl⟩ := Prod.mk.inj hout
          exact ⟨hstatus, rfl, rfl, rfl⟩
      | ok next =>
          rw [hjoin] at hout
          cases hout
  · split at hout
    · next hother =>
      obtain ⟨-, rfl⟩ := Prod.mk.inj hout
      exact ⟨by simpa using hother, rfl, rfl, rfl⟩
    · cases hout

/-! ### The chain -/

/-- A request of a chain, and what the server said. -/
structure Hop where
  url : String
  reply : Reply

/-- Replies that lead from a URL to a success: every one but the last names the next URL. -/
inductive Chain : String → List Hop → Prop where
  | last {url : String} {r : Reply} (status : r.status = 200) : Chain url [⟨url, r⟩]
  | next {url next location : String} {r : Reply} {hops : List Hop}
      (status : r.status = redirectStatus)
      (names : (r.headers.find? "location").filter (· != "") = some location)
      (joined : Url.join url location = .ok next) (rest : Chain next hops) :
      Chain url (⟨url, r⟩ :: hops)

/-- A chain ends with a success. -/
theorem Chain.exists_last {url : String} {hops : List Hop} (h : Chain url hops) :
    ∃ before hop, hops = before ++ [hop] ∧ hop.reply.status = 200 := by
  induction h with
  | last status => exact ⟨[], _, rfl, status⟩
  | next status names joined rest ih =>
      obtain ⟨before, hop, heq, hstatus⟩ := ih
      exact ⟨_ :: before, hop, by rw [heq]; rfl, hstatus⟩

/-- The exchange of a hop: it asked for a stream and is closed, and the last one was read in
parts. -/
structure Serves (x : Exchange) (hop : Hop) : Prop where
  url : x.request.url = hop.url
  streamed : x.request.streamed = true
  answered : x.answered = true
  closed : x.closed = true
  chunkSize : x.chunkSize = if hop.reply.status = 200 then some chunkSize else none

/-- The traffic of a download that succeeded with some bytes. -/
structure Arrived (url : String) (hops : List Hop) (b : List UInt8) (w w' : World) : Prop where
  chain : Chain url hops
  answers : w.answers = hops.map (fun hop => .reply hop.reply) ++ w'.answers
  exchanges : ∃ xs, w'.exchanges = w.exchanges ++ xs ∧ List.Forall₂ Serves xs hops
  body : hops.getLast?.bind (·.reply.body?) = some b

/-- What happens around a download without traffic does not matter to its traffic. -/
theorem Arrived.congr {url : String} {hops : List Hop} {b : List UInt8} {w w' v v' : World}
    (h : Arrived url hops b v v') (hv : v.traffic = w.traffic) (hv' : w'.traffic = v'.traffic) :
    Arrived url hops b w w' := by
  have ha : v.answers = w.answers := congrArg Traffic.answers hv
  have hx : v.exchanges = w.exchanges := congrArg Traffic.exchanges hv
  have ha' : w'.answers = v'.answers := congrArg Traffic.answers hv'
  have hx' : w'.exchanges = v'.exchanges := congrArg Traffic.exchanges hv'
  refine ⟨h.chain, ?_, ?_, h.body⟩
  · rw [← ha, ha']
    exact h.answers
  · rw [← hx, hx']
    exact h.exchanges

/-- A reply came in between the worlds, with an exchange of its own; the disk is as it was. -/
structure Answered (reply : Reply) (x : Exchange) (w v : World) : Prop where
  answers : w.answers = .reply reply :: v.answers
  exchanges : v.exchanges = w.exchanges ++ [x]
  disk : v.disk = w.disk

/-- One more redirect in front of a download that succeeded. -/
theorem Arrived.cons {url next location : String} {r : Reply} {q : Request} {hops : List Hop}
    {b : List UInt8} {w v w' : World} (h : Arrived next hops b v w')
    (hanswered : Answered r { Exchange.opened q true with closed := true } w v)
    (hurl : q.url = url) (hstreamed : q.streamed = true) (hstatus : r.status = redirectStatus)
    (hlocation : (r.headers.find? "location").filter (· != "") = some location)
    (hjoin : Url.join url location = .ok next) : Arrived url (⟨url, r⟩ :: hops) b w w' := by
  obtain ⟨xs, hxs, hserves⟩ := h.exchanges
  refine ⟨.next hstatus hlocation hjoin h.chain, ?_,
    ⟨{ Exchange.opened q true with closed := true } :: xs, ?_, .cons ?_ hserves⟩, ?_⟩
  · rw [hanswered.answers, h.answers]
    rfl
  · rw [hxs, hanswered.exchanges, List.append_assoc]
    rfl
  · refine ⟨hurl, hstreamed, rfl, rfl, ?_⟩
    have hne : ¬r.status = 200 := by rw [hstatus]; decide
    rw [if_neg hne]
    rfl
  -- the last hop is that of the rest, which is not empty
  · have hne : hops ≠ [] := by
      obtain ⟨before, hop, heq, -⟩ := h.chain.exists_last
      simp [heq]
    rw [List.getLast?_cons_of_ne_nil hne]
    exact h.body

/-- Closing or reading the exchange that was opened last changes that one only. -/
theorem modify_last (xs : List Exchange) (x : Exchange) (f : Exchange → Exchange) :
    (xs ++ [x]).modify xs.length f = xs ++ [f x] := by
  induction xs with
  | nil => rfl
  | cons y ys ih => simp [ih]

/-- A success that is kept is a chain of its own. -/
theorem arrived_keep {url : String} {r : Response} {b : List UInt8} {destination : Path}
    {q : Request} {w v w' : World} (hanswered : Answered r.reply (Exchange.opened q true) w v)
    (hurl : q.url = url) (hstreamed : q.streamed = true)
    (hnumber : r.exchange = w.exchanges.length) (hstatus : r.reply.status = 200)
    (hbody : r.reply.body? = some b) (hkeep : (keep r destination).perform v = (.ok (), w')) :
    Arrived url [⟨url, r.reply⟩] b w w' := by
  have htraffic := keep_traffic hkeep
  have hanswers : w'.answers = v.answers := congrArg Traffic.answers htraffic
  have hexchanges : w'.exchanges = _ := congrArg Traffic.exchanges htraffic
  rw [hnumber, hanswered.exchanges, modify_last] at hexchanges
  refine ⟨.last hstatus, ?_, ⟨_, hexchanges, .cons ⟨hurl, hstreamed, rfl, rfl, ?_⟩ .nil⟩, hbody⟩
  · rw [hanswered.answers, ← hanswers]
    rfl
  · rw [if_pos hstatus]

/-- **What one request of a chain comes to**: to no response, to one that is reported, to a redirect
that leads on, or to a success that is kept.  A response that is not kept is closed. -/
inductive Turn (c : Client) (h : Host) (o : Options) (destination : Path) (first : String)
    (limit : Int) (left : Nat) (url : String) (w : World) : Except Failure Unit → World → Prop where
  | refused {f : Failure} {v : World}
      (asked : (hop c h o destination url).perform w = (.error f, v)) :
      Turn c h o destination first limit left url w (.error f) v
  | reported {q : Request} {reply : Reply} {f : Failure} {v : World}
      (answered : Answered reply { Exchange.opened q true with closed := true } w v)
      (status : reply.status ≠ 200) : Turn c h o destination first limit left url w (.error f) v
  | passed {q : Request} {reply : Reply} {location next : String} {out : Except Failure Unit}
      {v w' : World}
      (answered : Answered reply { Exchange.opened q true with closed := true } w v)
      (address : q.url = url) (streamed : q.streamed = true)
      (status : reply.status = redirectStatus)
      (names : (reply.headers.find? "location").filter (· != "") = some location)
      (joined : Url.join url location = .ok next)
      (rest : (follow c h o destination first limit left next).perform v = (out, w')) :
      Turn c h o destination first limit left url w out w'
  | kept (r : Response) {q : Request} {out : Except Failure Unit} {v v' : World}
      (answered : Answered r.reply (Exchange.opened q true) w v)
      (address : q.url = url) (streamed : q.streamed = true)
      (number : r.exchange = w.exchanges.length) (status : r.reply.status = 200)
      (keeps : (keep r destination).perform v = (out, v')) (journal : List Record) :
      Turn c h o destination first limit left url w out { v' with journal := journal }

/-- **A chain takes its turn.** -/
theorem follow_turn {c : Client} {h : Host} {o : Options} {destination : Path} {first : String}
    {limit : Int} {left : Nat} {url : String} {w w' : World} {out : Except Failure Unit}
    (hout : (follow c h o destination first limit (left + 1) url).perform w = (out, w')) :
    Turn c h o destination first limit left url w out w' := by
  rw [follow, perform_bind] at hout
  rcases hask : (hop c h o destination url).perform w with ⟨result, v⟩
  rw [hask] at hout
  cases result with
  | error f =>
      obtain ⟨rfl, rfl⟩ := Prod.mk.inj hout
      exact .refused hask
  | ok r =>
      obtain ⟨headers, proxy, -, hanswers, hnumber, hsent, hdisk⟩ := hop_ok hask
      simp only at hout
      rw [perform_bind] at hout
      rcases hstatus : (judge url r).perform v with ⟨verdict, u⟩
      rw [hstatus] at hout
      cases verdict with
      | error f =>
          obtain ⟨rfl, rfl⟩ := Prod.mk.inj hout
          obtain ⟨hother, hdisk', hanswers', hclosed⟩ := judge_error hstatus
          rw [hnumber, hsent, modify_last] at hclosed
          exact .reported ⟨hanswers' ▸ hanswers, hclosed, hdisk'.trans hdisk⟩ hother
      | ok n =>
          obtain ⟨hdisk', hanswers', hn⟩ := judge_ok hstatus
          cases n with
          | go next =>
              obtain ⟨hredirect, hclosed, location, hlocation, hjoin⟩ := hn
              rw [hnumber, hsent, modify_last] at hclosed
              exact .passed ⟨hanswers' ▸ hanswers, hclosed, hdisk'.trans hdisk⟩ rfl rfl hredirect
                hlocation hjoin hout
          | finish r' =>
              obtain ⟨rfl, hsuccess, hsame⟩ := hn
              have hanswered : Answered r'.reply _ w u :=
                ⟨hanswers' ▸ hanswers, hsame.trans hsent, hdisk'.trans hdisk⟩
              simp only at hout
              rw [perform_bind] at hout
              rcases hkeep : (keep r' destination).perform u with ⟨kept, u'⟩
              rw [hkeep] at hout
              -- a note in the journal is all that may follow
              cases kept with
              | error f =>
                  obtain ⟨rfl, rfl⟩ := Prod.mk.inj hout
                  exact .kept r' hanswered rfl rfl hnumber hsuccess hkeep u'.journal
              | ok done =>
                  obtain ⟨rfl, rfl⟩ := Prod.mk.inj hout
                  exact .kept r' hanswered rfl rfl hnumber hsuccess hkeep _

/-- **What a download leaves behind**: the body of the last reply of a chain, or no new file. -/
theorem follow_spec (c : Client) (h : Host) (o : Options) {destination : Path}
    (hparent : destination.parent.Readable)
    (hname : destination.names ≠ [] → IsName destination.name) (first : String) (limit : Int)
    (left : Nat) (url : String) {w w' : World} (hw : w.disk.Plain) {out : Except Failure Unit}
    (hout : (follow c h o destination first limit left url).perform w = (out, w')) :
    (∃ hops b, out = .ok () ∧ hops.length ≤ left ∧ Arrived url hops b w w' ∧
      Edited (· = w.disk.locationOf destination) w.disk w'.disk ∧
      w'.disk.Holds destination b privateMode) ∨
    (∃ f, out = .error f) ∧ (Motion.spares destination).rel w w' := by
  -- induction on the requests that may still be sent, for every URL and every world they start in
  induction left generalizing url w with
  | zero =>
      obtain ⟨rfl, rfl⟩ := Prod.mk.inj hout
      exact .inr ⟨⟨_, rfl⟩, (Motion.spares destination).refl w⟩
  | succ left ih =>
      cases follow_turn hout with
      | refused hask =>
          have hhop := hop_spares c h o destination url w
          rw [hask] at hhop
          exact .inr ⟨⟨_, rfl⟩, hhop⟩
      | reported hanswered hstatus =>
          exact .inr ⟨⟨_, rfl⟩, Motion.spares_of_disk hanswered.disk⟩
      -- the rest of the chain starts at the next URL, on the same disk
      | passed hanswered hurl hstreamed hredirect hlocation hjoin hrest =>
          rcases ih _ (hanswered.disk ▸ hw) hrest with
            ⟨hops, b, hok, hlen, harrived, hedit, hfile⟩ | ⟨herror, hspares⟩
          · rw [hanswered.disk] at hedit
            exact .inl ⟨_ :: hops, b, hok, Nat.succ_le_succ hlen,
              harrived.cons hanswered hurl hstreamed hredirect hlocation hjoin, hedit, hfile⟩
          · exact .inr ⟨herror, (Motion.spares destination).trans
              (Motion.spares_of_disk hanswered.disk) hspares⟩
      -- the request was the last one: its body is kept, or what stood there before
      | kept r hanswered hurl hstreamed hnumber hsuccess hkeeps journal =>
          have hkeep := keep_spec r hparent hname (hanswered.disk ▸ hw)
          rw [hkeeps, hanswered.disk] at hkeep
          obtain ⟨hedit, ⟨hok, b, hbody, hfile⟩ | ⟨herror, hfile⟩⟩ := hkeep
          · obtain rfl := hok
            have harrived := arrived_keep hanswered hurl hstreamed hnumber hsuccess hbody hkeeps
            exact .inl ⟨[_], b, rfl, Nat.succ_le_succ left.zero_le, harrived.congr rfl rfl, hedit,
              hfile⟩
          · exact .inr ⟨herror, fun _ => ⟨hedit, hfile⟩⟩

end Stream

end ReleaseFetch
