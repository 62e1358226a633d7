/-
**Finding an asset, seen from outside.**

The description of a release is asked for by one request, which is not a stream.  Whatever comes of
it, the disk stays as it is; and when an asset is found, the answer was a success and its listing
has the asset under the name that was asked for.

Main definitions:

* `ReleaseFetch.Release.Found` — the traffic of a search that succeeded.

Main results:

* `ReleaseFetch.Release.locate_moves` — a motion holds of a search if it holds of sending;
* `ReleaseFetch.Release.locate_ok` — what a search that succeeded has sent and was told.
-/

import ReleaseFetch.Proofs.Transfer.Following
import ReleaseFetch.Release.Lookup

set_option autoImplicit false

namespace ReleaseFetch

open Session

namespace Client

/-! ### One text -/

/-- Asks for a text, after all that has to be decided about it is decided. -/
def askText (q : Request) : Session String := do
  let response ← wrapNetwork s!"Request to {q.url} failed" (send q)
  if response.reply.status != 200 then fail (.httpStatus response.reply.status q.url)
  return response.reply.text

/-- Notes the proxy of a request, if it takes one. -/
def noteProxy : Option String → Session Unit
  | some p => do log .debug .download s!"Using proxy {← give (Proxy.redacted p)}"
  | none => pure ()

/-- A text is asked for by one request. -/
theorem getText_eq (c : Client) (h : Host) (url : String) (o : Options) :
    c.getText h url o = (do
      log .info .download s!"GET {url}"
      let headers ← give (o.headers.scopedTo url o.trustedHost)
      let proxy ← Proxy.forRequest h url o
      noteProxy proxy
      askText (c.request url headers proxy o false)) := by
  unfold getText
  congr 1
  funext _
  congr 1
  funext headers
  congr 1
  funext proxy
  cases proxy with
  | none => rfl
  | some p =>
      simp only [noteProxy, bind_assoc]
      rfl

/-- A motion holds of asking if it holds of sending. -/
theorem askText_moves {T : Motion} {q : Request} (hsend : (send q).Moves T) :
    (askText q).Moves T := by
  unfold askText wrapNetwork
  refine .bind (.bind (.attempt hsend) fun result => ?_) fun response => ?_
  · cases result with
    | ok r => exact .pure _
    | error f =>
        simp only
        split
        · exact .fail _
        · exact .throw f
  · split
    · exact .bind (.fail _) fun _ => .pure _
    · exact .pure _

theorem noteProxy_quiet (proxy : Option String) : (noteProxy proxy).Quiet := by
  cases proxy with
  | none => exact .pure _
  | some p => exact .bind (.give _) fun _ => .log _ _ _

/-- A motion holds of getting a text if it holds of sending what the URL may see. -/
theorem getText_moves {T : Motion} {c : Client} {h : Host} {url : String} {o : Options}
    (hsend : ∀ headers proxy, o.headers.scopedTo url o.trustedHost = .ok headers →
      (send (c.request url headers proxy o false)).Moves T) : (c.getText h url o).Moves T := by
  rw [getText_eq]
  exact .bind (.log _ _ _) fun _ => .give_bind fun headers hscoped =>
    .bind (Proxy.forRequest_quiet h url o).moves fun proxy =>
      .bind (noteProxy_quiet proxy).moves fun _ => askText_moves (hsend headers proxy hscoped)

/-- A text that was got is the text of a success. -/
theorem askText_ok {q : Request} {text : String} {w w' : World}
    (h : (askText q).perform w = (.ok text, w')) :
    ∃ r, w.answers = .reply r :: w'.answers ∧
      w'.exchanges = w.exchanges ++ [Exchange.opened q true] ∧ r.status = 200 ∧ r.text = text := by
  unfold askText wrapNetwork at h
  obtain ⟨response, w₁, hwrap, hstatus⟩ := bind_ok h
  obtain ⟨result, w₂, hattempt, hresult⟩ := bind_ok hwrap
  have hsend := attempt_ok hattempt
  cases result with
  | error f =>
      simp only at hresult
      split at hresult <;> cases hresult
  | ok r =>
      obtain ⟨heq, rfl⟩ := Prod.mk.inj hresult
      obtain rfl := Except.ok.inj heq
      obtain ⟨hanswers, -, hw⟩ := send_ok hsend
      simp only at hstatus
      split at hstatus
      · obtain ⟨_, w₃, hfail, -⟩ := bind_ok hstatus
        cases hfail
      · next hok =>
        obtain ⟨heq, rfl⟩ := Prod.mk.inj hstatus
        refine ⟨r.reply, hanswers, ?_, by simpa using hok, Except.ok.inj heq⟩
        rw [hw]

/-- A text that was got was asked for by one request, with the headers that its URL may see. -/
theorem getText_ok {c : Client} {h : Host} {url : String} {o : Options} {text : String}
    {w w' : World} (hok : (c.getText h url o).perform w = (.ok text, w')) :
    ∃ headers proxy r, o.headers.scopedTo url o.trustedHost = .ok headers ∧
      w.answers = .reply r :: w'.answers ∧
      w'.exchanges = w.exchanges ++
        [Exchange.opened (c.request url headers proxy o false) true] ∧
      r.status = 200 ∧ r.text = text := by
  rw [getText_eq] at hok
  obtain ⟨_, w₁, h₁, hheaders⟩ := bind_ok hok
  obtain ⟨headers, w₂, h₂, hproxy⟩ := bind_ok hheaders
  obtain ⟨proxy, w₃, h₃, hnote⟩ := bind_ok hproxy
  obtain ⟨_, w₄, h₄, hask⟩ := bind_ok hnote
  obtain ⟨hscoped, rfl⟩ := give_ok h₂
  have t₃ := (Proxy.forRequest_quiet h url o).isLocal.traffic w₂
  have t₄ := (noteProxy_quiet proxy).isLocal.traffic w₃
  rw [h₃] at t₃
  rw [h₄] at t₄
  have t₂ : w₂.traffic = w.traffic := by
    rw [← (Prod.mk.inj h₁).2]
    rfl
  have htraffic := (t₄.trans t₃).trans t₂
  obtain ⟨r, hanswers, hexchanges, hstatus, htext⟩ := askText_ok hask
  have ha : w₄.answers = w.answers := congrArg Traffic.answers htraffic
  have hx : w₄.exchanges = w.exchanges := congrArg Traffic.exchanges htraffic
  exact ⟨headers, proxy, r, hscoped, ha ▸ hanswers, hx ▸ hexchanges, hstatus, htext⟩

end Client

namespace Release

/-! ### The asset -/

theorem readListing_quiet (body : String) : (readListing body).Quiet := by
  unfold readListing
  refine .bind (.give _) ?_
  intro listing
  cases listing with
  | malformed detail => exact .pure _
  | withoutAssets body => exact .pure _
  | assets found dropped =>
      simp only
      split
      · exact .bind (.log _ _ _) fun _ => .pure _
      · exact .pure _

theorem pick_quiet (listing : Listing) (name : String) : (pick listing name).Quiet := by
  unfold pick
  split
  · exact .fail _
  · exact .fail _
  · split
    · exact .fail _
    · exact .bind (.log _ _ _) fun _ => .pure _

/-- A motion holds of a search if it holds of getting the description of the release. -/
theorem locate_moves {T : Motion} {c : Client} {h : Host} {q : Query}
    (hget : (c.getText h (url q.apiHost q.repo q.version) q.options).Moves T) :
    (locate c h q).Moves T :=
  .bind (.log _ _ _) fun _ => .bind hget fun body =>
    .bind (readListing_quiet body).moves fun listing => (pick_quiet listing q.asset).moves

/-- **A search for an asset leaves the disk alone.** -/
theorem locate_still (c : Client) (h : Host) (q : Query) : (locate c h q).Moves Motion.still :=
  locate_moves (Client.getText_moves fun _ _ _ => send_still _)

/-- A listing that was read is the listing of the text. -/
theorem readListing_ok {body : String} {listing : Listing} {w w' : World}
    (h : (readListing body).perform w = (.ok listing, w')) : Listing.ofText body = .ok listing := by
  unfold readListing at h
  obtain ⟨l, w₁, h₁, h₂⟩ := bind_ok h
  obtain ⟨hofText, rfl⟩ := give_ok h₁
  suffices hl : l = listing from hl ▸ hofText
  cases l with
  | malformed detail => exact Except.ok.inj (Prod.mk.inj h₂).1
  | withoutAssets body => exact Except.ok.inj (Prod.mk.inj h₂).1
  | assets found dropped =>
      simp only at h₂
      split at h₂
      · obtain ⟨_, w₂, -, h₃⟩ := bind_ok h₂
        exact Except.ok.inj (Prod.mk.inj h₃).1
      · exact Except.ok.inj (Prod.mk.inj h₂).1

/-- An asset that was picked is the first one of its name. -/
theorem pick_ok {listing : Listing} {name : String} {a : Asset} {w w' : World}
    (h : (pick listing name).perform w = (.ok a, w')) : listing.find? name = some a := by
  unfold pick at h
  split at h
  · cases h
  · cases h
  · split at h
    · cases h
    · next a' hfind =>
      obtain ⟨_, w₁, -, h₁⟩ := bind_ok h
      rw [hfind]
      exact congrArg some (Except.ok.inj (Prod.mk.inj h₁).1)

/-- The traffic of a search that succeeded. -/
structure Found (q : Query) (a : Asset) (r : Reply) (w w' : World) : Prop where
  answers : w.answers = .reply r :: w'.answers
  exchanges : ∃ x, w'.exchanges = w.exchanges ++ [x] ∧
    x.request.url = url q.apiHost q.repo q.version ∧ x.request.streamed = false ∧
    x.answered = true
  status : r.status = 200
  listing : ∃ listing, Listing.ofText r.text = .ok listing ∧ listing.find? q.asset = some a

/-- **A search that succeeded asked once for the release and found the asset in the answer.** -/
theorem locate_ok {c : Client} {h : Host} {q : Query} {a : Asset} {w w' : World}
    (hok : (locate c h q).perform w = (.ok a, w')) : ∃ r, Found q a r w w' := by
  obtain ⟨_, w₁, h₁, hbody⟩ := bind_ok hok
  obtain ⟨body, w₂, h₂, hlisting⟩ := bind_ok hbody
  obtain ⟨listing, w₃, h₃, h₄⟩ := bind_ok hlisting
  obtain ⟨headers, proxy, r, -, hanswers, hexchanges, hstatus, rfl⟩ := Client.getText_ok h₂
  have t₃ := (readListing_quiet r.text).isLocal.traffic w₂
  have t₄ := (pick_quiet listing q.asset).isLocal.traffic w₃
  rw [h₃] at t₃
  rw [h₄] at t₄
  have ha : w'.answers = w₂.answers := congrArg Traffic.answers (t₄.trans t₃)
  have hx : w'.exchanges = w₂.exchanges := congrArg Traffic.exchanges (t₄.trans t₃)
  obtain rfl := (Prod.mk.inj h₁).2
  refine ⟨r, ?_, ⟨_, hx.trans hexchanges, rfl, rfl, rfl⟩, hstatus, listing, readListing_ok h₃,
    pick_ok h₄⟩
  rw [ha]
  exact hanswers

end Release

end ReleaseFetch
