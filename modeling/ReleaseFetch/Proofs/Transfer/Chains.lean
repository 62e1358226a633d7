/-
**Chains of redirects.**

The answers that the network will give lead over a chain of URLs: a redirect with a location leads
to the next one, and any other answer ends the chain.  A download asks for the URLs of its chain in
their order, each with the headers that are its own and through its own proxy, and for no more of
them than its limit allows.  If the chain is longer, that is what it says; if not, the last answer
alone decides what it ends with and what stands at the destination.

Main definitions:

* `ReleaseFetch.Stream.Route`, `ReleaseFetch.Stream.route` — the chain that answers lead over;
* `ReleaseFetch.Stream.Ready`, `ReleaseFetch.Stream.Asks` — a URL that can be asked for, and the
  request that asks for it;
* `ReleaseFetch.Answer.result`, `ReleaseFetch.Answer.left` — what a download ends with, and what it
  leaves at its destination, if an answer is the last one.

Main results:

* `ReleaseFetch.Stream.follow_go`, `ReleaseFetch.Stream.follow_finish`,
  `ReleaseFetch.Stream.follow_stop` — one request of a chain;
* `ReleaseFetch.Stream.follow_route` — a chain, by induction;
* `ReleaseFetch.Stream.download_route` — a download.
-/

import ReleaseFetch.Proofs.Credential.Address
import ReleaseFetch.Proofs.Transfer.Deciding
import ReleaseFetch.Proofs.Transfer.Writing

set_option autoImplicit false

namespace ReleaseFetch

open Disk Session

/-! ### Chains -/

namespace Answer

/-- The location that an answer redirects to. -/
def location? : Answer → Option String
  | .reply r =>
    if r.status = Stream.redirectStatus then
      (r.headers.find? "location").filter (· != "")
    else none
  | .failure _ => none

/-- What a download ends with if the answer to its request for a URL is the last one. -/
def result (url : String) : Answer → Except Failure Unit
  | .failure f =>
    .error (if f.isNetwork then .problem (.transport s!"Download of {url} failed: {f.message}")
      else f)
  | .reply r =>
    if r.status = 200 then r.keepResult else .error (.problem (.downloadFailed r.status url))

/-- What stands at the destination of a download if the answer is the last one. -/
def left (before : Option Entry) : Answer → Option Entry
  | .failure f => if f.isNetwork then none else before
  | .reply r => if r.status = 200 then r.left before else before

end Answer

namespace Stream

/-- A chain: the URLs that were redirected, the one that was not, and its answer. -/
structure Route where
  passed : List String
  last : String
  answer : Answer
  deriving DecidableEq

/-- The URLs of a chain. -/
def Route.urls (t : Route) : List String := t.passed ++ [t.last]

/-- **The chain that answers lead over from a URL.** -/
def route (url : String) : List Answer → Except Failure Route
  | [] => .ok ⟨[], url, .failure noAnswer⟩
  | a :: rest =>
    match a.location? with
    | none => .ok ⟨[], url, a⟩
    | some location =>
      match Url.join url location with
      | .error f => .error f
      | .ok next => (route next rest).map fun t => { t with passed := url :: t.passed }

/-- A chain goes on at a redirect with a location, and ends at any other answer. -/
theorem route_cases {url : String} {answers : List Answer} {t : Route}
    (h : route url answers = .ok t) :
    (∃ r rest location next t', answers = .reply r :: rest ∧
      (Answer.reply r).location? = some location ∧ Url.join url location = .ok next ∧
        route next rest = .ok t' ∧ t = { t' with passed := url :: t'.passed }) ∨
    ∃ a, (answers = [] ∧ a = .failure noAnswer ∨ ∃ rest, answers = a :: rest) ∧
      a.location? = none ∧ t = ⟨[], url, a⟩ := by
  cases answers with
  | nil => exact .inr ⟨_, .inl ⟨rfl, rfl⟩, rfl, (Except.ok.inj h).symm⟩
  | cons a rest =>
      cases hlocation : a.location? with
      | none =>
          rw [route, hlocation] at h
          exact .inr ⟨a, .inr ⟨rest, rfl⟩, hlocation, (Except.ok.inj h).symm⟩
      | some location =>
          rw [route, hlocation] at h
          simp only at h
          cases hjoin : Url.join url location with
          | error f => rw [hjoin] at h; cases h
          | ok next =>
              rw [hjoin] at h
              obtain ⟨t', hrest, rfl⟩ := decided_map h
              cases a with
              | failure f => cases hlocation
              | reply r =>
                  exact .inl ⟨r, rest, location, next, t', rfl, hlocation, hjoin, hrest, rfl⟩

/-! ### Requests of a chain -/

/-- All that has to be decided to ask for a URL can be decided. -/
def Ready (h : Host) (o : Options) (url : String) : Prop :=
  ∃ headers proxy shown, o.headers.scopedTo url o.trustedHost = .ok headers ∧
    Proxy.ofRequest h url o = .ok proxy ∧ shownProxy proxy = .ok shown

/-- **The request asks for a URL**, with the headers of the options that this URL may see and the
proxy that is its own, and the sender is not left to follow a redirect. -/
structure Asks (h : Host) (o : Options) (url : String) (q : Request) : Prop where
  address : q.url = url
  headers : o.headers.scopedTo url o.trustedHost = .ok q.headers
  proxy : Proxy.ofRequest h url o = .ok q.proxy
  timeout : q.timeout = o.timeout
  streamed : q.streamed = true
  followsRedirects : q.followsRedirects = false

variable {c : Client} {h : Host} {o : Options} {destination : Path} {url : String}

/-- A hop to a URL that can be asked for sends the request that asks for it. -/
theorem hop_ready (hready : Ready h o url) (c : Client) (destination : Path) :
    ∃ q note j, Asks h o url q ∧ ∀ w, (hop c h o destination url).perform w =
      (ask q destination note).perform { w with journal := w.journal ++ j } := by
  obtain ⟨headers, proxy, shown, hheaders, hproxy, hshown⟩ := hready
  obtain ⟨j, hj⟩ := Proxy.forRequest_yields h url o
  refine ⟨c.request url headers proxy o true,
    s!"Download options: headers={headers.redacted.shown} proxy={shown}", j,
    ⟨rfl, hheaders, hproxy, rfl, rfl, rfl⟩, fun w => ?_⟩
  rw [hop_eq, perform_bind, perform_give, hheaders]
  simp only
  rw [perform_bind, hj, hproxy]
  simp only
  rw [perform_bind, perform_give, hshown]

/-- A request that is answered. -/
theorem ask_reply {q : Request} {note : String} {r : Reply} {rest : List Answer} {w : World}
    (hanswers : w.answers = .reply r :: rest) :
    (ask q destination note).perform w =
      (.ok ⟨r, w.exchanges.length⟩, { w with
        answers := rest
        exchanges := w.exchanges ++ [Exchange.opened q true]
        journal := w.journal ++ [⟨.debug, .download, note, false⟩] }) := by
  unfold ask
  rw [perform_bind, perform_log]
  simp only
  rw [perform_bind, perform_attempt, perform_send]
  simp only [hanswers]
  rfl

/-- A request that fails: what the network reports is wrapped, and the destination is cleared. -/
theorem ask_failure (q : Request) (note : String) {f : Failure} {w : World} {place : Place}
    (hanswers : w.answers = [] ∧ f = noAnswer ∨ ∃ rest, w.answers = .failure f :: rest)
    (hplace : w.disk.find false destination = .ok place) (hdir : place.entry ≠ some .directory) :
    ∃ g, ((ask q destination note).perform w).1 = .error g ∧
      (Answer.failure f).result q.url = .error g ∧
      ((ask q destination note).perform w).2.disk.get? place.location =
        (Answer.failure f).left place.entry := by
  obtain ⟨v, hsend, hdisk⟩ : ∃ v, (send q).perform { w with
      journal := w.journal ++ [⟨.debug, .download, note, false⟩] } = (.error f, v) ∧
        v.disk = w.disk := by
    rw [perform_send]
    rcases hanswers with ⟨hnil, rfl⟩ | ⟨rest, hcons⟩
    · simp only [hnil]
      exact ⟨_, rfl, rfl⟩
    · simp only [hcons]
      exact ⟨_, rfl, rfl⟩
  rw [← hdisk] at hplace
  unfold ask Answer.result Answer.left
  rw [perform_bind, perform_log]
  simp only
  rw [perform_bind, perform_attempt, hsend]
  simp only
  cases hnetwork : f.isNetwork with
  | false =>
      simp only [Bool.false_eq_true, if_false]
      exact ⟨f, rfl, rfl, find_entry hplace hdir⟩
  | true =>
      simp only [if_true]
      obtain ⟨⟨b, hdiscard⟩, hgone⟩ := Files.discard_clears hplace hdir
      rw [perform_bind]
      rcases hperform : (Files.discard destination).perform v with ⟨result, u⟩
      rw [hperform] at hdiscard hgone
      simp only at hdiscard
      subst hdiscard
      exact ⟨_, rfl, rfl, hgone.shows⟩

/-! ### Requests that are sent -/

end Stream

/-- No request is sent. -/
def Motion.unasked : Motion where
  rel w w' := w'.exchanges.map (·.request) = w.exchanges.map (·.request)
  refl _ := rfl
  trans h h' := h'.trans h
  journal _ _ := rfl

namespace Session

theorem Local.unasked {α : Type} {x : Session α} (hx : x.Local) : x.Moves Motion.unasked := by
  intro w
  have hexchanges : (x.perform w).2.exchanges = w.exchanges :=
    congrArg Traffic.exchanges (hx.traffic w)
  exact congrArg (List.map (·.request)) hexchanges

theorem close_unasked (r : Response) : (close r).Moves Motion.unasked :=
  fun _ => map_modify_of_eq _ _ fun _ => rfl

theorem startReading_unasked (r : Response) (size : Nat) :
    (startReading r size).Moves Motion.unasked :=
  fun _ => map_modify_of_eq _ _ fun _ => rfl

end Session

namespace Stream

variable {c : Client} {h : Host} {o : Options} {destination : Path} {url : String}

theorem judge_unasked (url : String) (r : Response) : (judge url r).Moves Motion.unasked :=
  judge_moves close_unasked url r

theorem keep_unasked (r : Response) (destination : Path) :
    (keep r destination).Moves Motion.unasked :=
  keep_moves Local.unasked close_unasked startReading_unasked r destination

/-! ### Answers that are judged -/

/-- A redirect with a location leads on. -/
theorem judge_go {r : Response} {location next : String} (w : World)
    (hlocation : (Answer.reply r.reply).location? = some location)
    (hjoin : Url.join url location = .ok next) :
    ∃ v, (judge url r).perform w = (.ok (.go next), v) ∧ v.disk = w.disk ∧
      v.answers = w.answers := by
  unfold Answer.location? at hlocation
  simp only at hlocation
  split at hlocation
  · next hstatus =>
    unfold judge
    rw [perform_bind, perform_log]
    simp only
    rw [if_pos hstatus, perform_bind, perform_close]
    simp only
    rw [hlocation]
    simp only
    rw [perform_bind, perform_give, hjoin]
    exact ⟨_, rfl, rfl, rfl⟩
  · cases hlocation

/-- Any other answer but a success is reported. -/
theorem judge_fail (url : String) {r : Response} (w : World)
    (hlocation : (Answer.reply r.reply).location? = none) (hstatus : r.reply.status ≠ 200) :
    ∃ v, (judge url r).perform w =
        (.error (.problem (.downloadFailed r.reply.status url)), v) ∧ v.disk = w.disk := by
  unfold Answer.location? at hlocation
  simp only at hlocation
  unfold judge
  rw [perform_bind, perform_log]
  simp only
  split at hlocation
  · next hredirect =>
    rw [if_pos hredirect, perform_bind, perform_close]
    simp only
    rw [hlocation]
    exact ⟨_, rfl, rfl⟩
  · next hredirect =>
    have hne : (r.reply.status != 200) = true := by simpa using hstatus
    rw [if_neg hredirect, hne]
    exact ⟨_, rfl, rfl⟩

/-- A success is the end. -/
theorem judge_finish (url : String) {r : Response} (w : World) (hstatus : r.reply.status = 200) :
    ∃ v, (judge url r).perform w = (.ok (.finish r), v) ∧ v.disk = w.disk := by
  have hredirect : ¬r.reply.status = redirectStatus := by rw [hstatus]; decide
  unfold judge
  rw [perform_bind, perform_log]
  simp only
  rw [if_neg hredirect, hstatus]
  exact ⟨_, rfl, rfl⟩

/-! ### One request of a chain -/

section Follow

variable {w : World}

/-- A hop whose request is answered. -/
theorem hop_reply (c : Client) (destination : Path) {r : Reply} {rest : List Answer}
    (hready : Ready h o url) (hanswers : w.answers = .reply r :: rest) :
    ∃ q v, Asks h o url q ∧
      (hop c h o destination url).perform w = (.ok ⟨r, w.exchanges.length⟩, v) ∧
      v.disk = w.disk ∧ v.answers = rest ∧
      v.exchanges.map (·.request) = w.exchanges.map (·.request) ++ [q] := by
  obtain ⟨q, note, j, hasks, hhop⟩ := hop_ready hready c destination
  refine ⟨q, _, hasks, (hhop w).trans (ask_reply hanswers), rfl, rfl, ?_⟩
  simp [Exchange.opened]

/-- A hop whose request fails. -/
theorem hop_failure (c : Client) {f : Failure} {place : Place} (hready : Ready h o url)
    (hanswers : w.answers = [] ∧ f = noAnswer ∨ ∃ rest, w.answers = .failure f :: rest)
    (hplace : w.disk.find false destination = .ok place) (hdir : place.entry ≠ some .directory) :
    ∃ q g v, Asks h o url q ∧ (hop c h o destination url).perform w = (.error g, v) ∧
      (Answer.failure f).result url = .error g ∧
      v.exchanges.map (·.request) = w.exchanges.map (·.request) ++ [q] ∧
      v.disk.get? place.location = (Answer.failure f).left place.entry := by
  obtain ⟨q, note, j, hasks, hhop⟩ := hop_ready hready c destination
  obtain ⟨g, herror, hresult, hleft⟩ := ask_failure q note
    (w := { w with journal := w.journal ++ j }) hanswers hplace hdir
  have hsent := ask_requests q destination note { w with journal := w.journal ++ j }
  rw [hasks.address] at hresult
  refine ⟨q, g, _, hasks, (hhop w).trans (Prod.ext herror rfl), hresult, hsent, hleft⟩

/-- **A redirect with a location**: one request is sent, and the chain goes on at the next URL with
one request less. -/
theorem follow_go (c : Client) (destination : Path) (first : String) (limit : Int) (left : Nat)
    {r : Reply} {rest : List Answer} {location next : String}
    (hready : Ready h o url) (hanswers : w.answers = .reply r :: rest)
    (hlocation : (Answer.reply r).location? = some location)
    (hjoin : Url.join url location = .ok next) :
    ∃ q v, Asks h o url q ∧ v.disk = w.disk ∧ v.answers = rest ∧
      v.exchanges.map (·.request) = w.exchanges.map (·.request) ++ [q] ∧
      (follow c h o destination first limit (left + 1) url).perform w =
        (follow c h o destination first limit left next).perform v := by
  obtain ⟨q, u, hasks, hhop, hdisk, hrest, hsent⟩ :=
    hop_reply c destination hready hanswers
  obtain ⟨v, hjudge, hdisk', hrest'⟩ := judge_go (r := ⟨r, w.exchanges.length⟩) u hlocation hjoin
  have hsame : v.exchanges.map (·.request) = u.exchanges.map (·.request) := by
    have hmoves := judge_unasked url ⟨r, w.exchanges.length⟩ u
    rwa [hjudge] at hmoves
  refine ⟨q, v, hasks, hdisk'.trans hdisk, hrest'.trans hrest, hsame.trans hsent, ?_⟩
  rw [follow, perform_bind, hhop]
  simp only
  rw [perform_bind, hjudge]

/-- **A success**: one request is sent, and the response is kept. -/
theorem follow_finish (c : Client) (destination : Path) (first : String) (limit : Int) (left : Nat)
    {r : Reply} {rest : List Answer} (hready : Ready h o url)
    (hanswers : w.answers = .reply r :: rest) (hstatus : r.status = 200) :
    ∃ q v, Asks h o url q ∧ v.disk = w.disk ∧
      v.exchanges.map (·.request) = w.exchanges.map (·.request) ++ [q] ∧
      (follow c h o destination first limit (left + 1) url).perform w =
        (keep ⟨r, w.exchanges.length⟩ destination >>= fun _ =>
          log .info .download s!"Download complete: {destination.text}").perform v := by
  obtain ⟨q, u, hasks, hhop, hdisk, -, hsent⟩ := hop_reply c destination hready hanswers
  obtain ⟨v, hjudge, hdisk'⟩ := judge_finish url (r := ⟨r, w.exchanges.length⟩) u hstatus
  have hsame : v.exchanges.map (·.request) = u.exchanges.map (·.request) := by
    have hmoves := judge_unasked url ⟨r, w.exchanges.length⟩ u
    rwa [hjudge] at hmoves
  refine ⟨q, v, hasks, hdisk'.trans hdisk, hsame.trans hsent, ?_⟩
  rw [follow, perform_bind, hhop]
  simp only
  rw [perform_bind, hjudge]

/-- **Any other answer**: one request is sent, and the answer decides what the chain ends with. -/
theorem follow_stop (c : Client) (first : String) (limit : Int) (left : Nat) {a : Answer}
    {place : Place} (hready : Ready h o url)
    (hanswers : w.answers = [] ∧ a = .failure noAnswer ∨ ∃ rest, w.answers = a :: rest)
    (hlocation : a.location? = none) (hroom : Accepts w.disk destination)
    (hplace : w.disk.find false destination = .ok place) :
    ∃ q out v, Asks h o url q ∧
      (follow c h o destination first limit (left + 1) url).perform w = (out, v) ∧
      v.exchanges.map (·.request) = w.exchanges.map (·.request) ++ [q] ∧
      out = a.result url ∧ v.disk.get? place.location = a.left place.entry := by
  have hdir : place.entry ≠ some .directory := by
    obtain ⟨place', hplace', hdir⟩ := hroom.place
    rwa [Except.ok.inj (hplace.symm.trans hplace')]
  cases a with
  | failure f =>
      have hfailure : w.answers = [] ∧ f = noAnswer ∨ ∃ rest, w.answers = .failure f :: rest :=
        hanswers.imp_left fun h => ⟨h.1, Answer.failure.inj h.2⟩
      obtain ⟨q, g, v, hasks, hhop, hresult, hsent, hleft⟩ :=
        hop_failure c hready hfailure hplace hdir
      refine ⟨q, .error g, v, hasks, ?_, hsent, hresult.symm, hleft⟩
      rw [follow, perform_bind, hhop]
  | reply r =>
      obtain ⟨rest, hrest⟩ : ∃ rest, w.answers = .reply r :: rest :=
        hanswers.resolve_left fun h => by cases h.2
      unfold Answer.result Answer.left
      simp only
      by_cases hstatus : r.status = 200
      · -- the body is kept, and its result is the result of all
        obtain ⟨q, v, hasks, hsame, hsent, hfollow⟩ :=
          follow_finish c destination first limit left hready hrest hstatus
        rw [← hsame] at hroom hplace
        obtain ⟨hresult, hleft⟩ := keep_room (r := ⟨r, w.exchanges.length⟩) hroom hplace
        have hkept := keep_unasked ⟨r, w.exchanges.length⟩ destination v
        rcases hkeep : (keep ⟨r, w.exchanges.length⟩ destination).perform v with ⟨out, v'⟩
        rw [hkeep] at hresult hleft hkept
        rw [if_pos hstatus, if_pos hstatus, hfollow, perform_bind, hkeep]
        cases out with
        | error g => exact ⟨q, _, v', hasks, rfl, hkept.trans hsent, hresult, hleft⟩
        | ok u => exact ⟨q, _, _, hasks, rfl, hkept.trans hsent, hresult, hleft⟩
      · obtain ⟨q, u, hasks, hhop, hdisk, -, hsent⟩ := hop_reply c destination hready hrest
        have hmoves := judge_unasked url ⟨r, w.exchanges.length⟩ u
        obtain ⟨v, hjudge, hdisk'⟩ := judge_fail url (r := ⟨r, w.exchanges.length⟩) u hlocation
          hstatus
        rw [hjudge] at hmoves
        refine ⟨q, _, v, hasks, ?_, hmoves.trans hsent, (if_neg hstatus).symm, ?_⟩
        · rw [follow, perform_bind, hhop]
          simp only
          rw [perform_bind, hjudge]
        · rw [if_neg hstatus, hdisk', hdisk, find_entry hplace hdir]

/-! ### A chain -/

/-- **A chain is followed as far as the requests reach**, and its last answer decides the rest. -/
theorem follow_route (c : Client) {t : Route} {place : Place} (hroute : route url w.answers = .ok t)
    (hready : ∀ u ∈ t.urls, Ready h o u) (hroom : Accepts w.disk destination)
    (hplace : w.disk.find false destination = .ok place) (first : String) (limit : Int)
    (left : Nat) :
    ∃ qs out v, (follow c h o destination first limit left url).perform w = (out, v) ∧
      v.exchanges.map (·.request) = w.exchanges.map (·.request) ++ qs ∧
      List.Forall₂ (Asks h o) (t.urls.take left) qs ∧
      (left ≤ t.passed.length →
        out = .error (.problem (.tooManyRedirects first limit)) ∧ v.disk = w.disk) ∧
      (t.passed.length < left →
        out = t.answer.result t.last ∧ v.disk.get? place.location = t.answer.left place.entry) := by
  -- induction on the requests that are left, for every URL and every world the chain goes on in
  induction left generalizing url w t with
  | zero =>
      refine ⟨[], _, w, rfl, (List.append_nil _).symm, ?_, fun _ => ⟨rfl, rfl⟩,
        fun hlt => absurd hlt (Nat.not_lt_zero _)⟩
      rw [List.take_zero]
      exact .nil
  | succ left ih =>
      rcases route_cases hroute with ⟨r, rest, location, next, t, hanswers, hlocation, hjoin,
        hrest, rfl⟩ | ⟨a, hanswers, hlocation, rfl⟩
      · obtain ⟨q, u, hasks, hdisk, hu, hsent, hfollow⟩ :=
          follow_go c destination first limit left (hready url (by simp [Route.urls])) hanswers
            hlocation hjoin
        rw [← hdisk] at hroom hplace
        obtain ⟨qs, out, v, hperform, hsent', hall, hlong, hshort⟩ := ih (hu.symm ▸ hrest)
          (fun u hu => hready u (List.mem_cons_of_mem _ hu)) hroom hplace
        refine ⟨q :: qs, out, v, hfollow.trans hperform, ?_, .cons hasks hall, ?_, ?_⟩
        · rw [hsent', hsent, List.append_assoc]
          rfl
        · intro hle
          obtain ⟨hout, hsame⟩ := hlong (Nat.le_of_succ_le_succ hle)
          exact ⟨hout, hsame.trans hdisk⟩
        · exact fun hlt => hshort (Nat.lt_of_succ_lt_succ hlt)
      -- the chain ends here, with one request
      · obtain ⟨q, out, v, hasks, hperform, hsent, hout, hleft⟩ :=
          follow_stop c first limit left (hready url (by simp [Route.urls])) hanswers hlocation hroom
            hplace
        refine ⟨[q], out, v, hperform, hsent, ?_, fun hle => absurd hle (Nat.not_succ_le_zero _),
          fun _ => ⟨hout, hleft⟩⟩
        simpa [Route.urls] using hasks

/-- **A download over redirects.**  It asks for the URLs of its chain in their order, each with its
own headers and its own proxy, and for at most one more than its limit.  If more redirects are left
than that, it says so and leaves the disk alone; if not, the last answer decides what it ends with
and what stands where the destination was found. -/
theorem download_route (c : Client) (limit : Nat) {t : Route} {place : Place}
    (hroute : route url w.answers = .ok t) (hready : ∀ u ∈ t.urls, Ready h o u)
    (hroom : Accepts w.disk destination) (hplace : w.disk.find false destination = .ok place)
    {out : Except Failure Unit} {w' : World}
    (hout : (download c h limit url destination o).perform w = (out, w')) :
    (∃ qs, w'.exchanges.map (·.request) = w.exchanges.map (·.request) ++ qs ∧
      List.Forall₂ (Asks h o) (t.urls.take (limit + 1)) qs) ∧
    (limit < t.passed.length →
      out = .error (.problem (.tooManyRedirects url limit)) ∧ w'.disk = w.disk) ∧
    (t.passed.length ≤ limit →
      out = t.answer.result t.last ∧ w'.disk.get? place.location = t.answer.left place.entry) := by
  obtain ⟨qs, out', v, hperform, hsent, hall, hlong, hshort⟩ :=
    follow_route c hroute hready hroom hplace url limit (limit + 1)
  have hrequests : ((limit : Int) + 1).toNat = limit + 1 := rfl
  rw [download, hrequests, hperform] at hout
  obtain ⟨rfl, rfl⟩ := Prod.mk.inj hout
  exact ⟨⟨qs, hsent, hall⟩, hlong, fun hle => hshort (Nat.lt_succ_of_le hle)⟩

end Follow

/-- A redirect from the trusted host to another one, and a body. -/
def leadingAnswers : List Answer :=
  [.reply ⟨302, [("Location", "https://b.org/x")], "", []⟩,
    .reply ⟨200, [], "", [.bytes [1], .bytes [2]]⟩]

/-- The chain that these answers lead over. -/
def leadingRoute : Route :=
  ⟨["https://api.github.com/a"], "https://b.org/x", .reply ⟨200, [], "", [.bytes [1], .bytes [2]]⟩⟩

theorem accepts_empty : Accepts ⟨[], []⟩ ⟨.here, ["tool"]⟩ where
  named := by decide
  parent := by decide +kernel
  place := ⟨⟨["tool"], none⟩, by decide +kernel, by simp⟩
  room := ⟨⟨.single, []⟩, by decide +kernel, 0, by decide, fun i hi => absurd hi (Nat.not_lt_zero i),
    [".tool.XXXXXXXX.part"], by decide +kernel⟩

theorem ready_leading : ∀ u ∈ leadingRoute.urls, Ready ⟨"linux", "x86_64", []⟩ carrying u := by
  intro u hu
  simp only [Route.urls, leadingRoute, List.cons_append, List.nil_append, List.mem_cons,
    List.not_mem_nil, or_false] at hu
  rcases hu with rfl | rfl
  · exact ⟨carrying.headers, none, "None", by decide +kernel, by decide +kernel, rfl⟩
  · exact ⟨[], none, "None", by decide +kernel, by decide +kernel, rfl⟩

/-- A chain of two URLs, of which only the first one sees the credential. -/
theorem download_route_leading :
    ∃ out w', (download .own ⟨"linux", "x86_64", []⟩ (1 : Nat) "https://api.github.com/a"
        ⟨.here, ["tool"]⟩ carrying).perform (World.fresh ⟨[], []⟩ leadingAnswers) = (out, w') ∧
      (∃ qs, w'.exchanges.map (·.request) = [] ++ qs ∧
        List.Forall₂ (Asks ⟨"linux", "x86_64", []⟩ carrying) leadingRoute.urls qs) ∧
      out = .ok () ∧ w'.disk.get? ["tool"] = some (.file [1, 2] privateMode) := by
  have hroute : route "https://api.github.com/a" leadingAnswers = .ok leadingRoute := by
    decide +kernel
  have hplace : Disk.find ⟨[], []⟩ false ⟨.here, ["tool"]⟩ = .ok ⟨["tool"], none⟩ := by
    decide +kernel
  rcases hperform : (download .own ⟨"linux", "x86_64", []⟩ (1 : Nat) "https://api.github.com/a"
    ⟨.here, ["tool"]⟩ carrying).perform (World.fresh ⟨[], []⟩ leadingAnswers) with ⟨out, w'⟩
  obtain ⟨hsent, -, hend⟩ := download_route .own 1 (w := World.fresh ⟨[], []⟩ leadingAnswers)
    hroute ready_leading accepts_empty hplace hperform
  obtain ⟨hout, hfile⟩ := hend (by decide)
  exact ⟨out, w', rfl, hsent, hout, hfile⟩

end Stream

end ReleaseFetch
