/-
**The assets of a release that was written.**

A release is an object with a list of entries among its members.  Written as text and sent as the
answer to a lookup, it is listed as exactly those entries that are objects with a name and a URL, in
their order, and the lookup gives the first one of the name that was asked for.  Any other value,
and a text that is no value, is refused with the words for it.

Main definitions:

* `ReleaseFetch.Listing.pairOf?` — the name and the URL of an entry;
* `ReleaseFetch.Release.describing` — the object that describes a release;
* `ReleaseFetch.Release.verdict` — what a lookup makes of a listing.

Main results:

* `ReleaseFetch.Listing.ofText_describing` — the listing of a release that was written;
* `ReleaseFetch.Client.getText_told` — a text that was answered with success is got;
* `ReleaseFetch.Release.locate_told` — a lookup ends with the verdict on the listing;
* `ReleaseFetch.Release.locate_exact` — what a lookup ends with, by what it was answered.
-/

import ReleaseFetch.Proofs.Json.Dumping
import ReleaseFetch.Proofs.Release.Locating

set_option autoImplicit false

namespace ReleaseFetch

open Json (Value)
open Session

/-! ### Entries -/

namespace Listing

/-- The name and the URL of an entry that is an object in which both are texts. -/
def pairOf? : Value → Option Asset
  | .object fields =>
    match fields.lookup "name", fields.lookup "url" with
    | some (.string name), some (.string url) => some ⟨name, url⟩
    | _, _ => none
  | _ => none

theorem exact_of_lookup {fields : List (String × Value)} {name : String} {v : Value}
    (hfields : Json.ExactFields fields) (hv : fields.lookup name = some v) : v.Exact := by
  induction fields with
  | nil => cases hv
  | cons f fields ih =>
      obtain ⟨n, w⟩ := f
      rw [List.lookup_cons] at hv
      split at hv
      · exact Option.some.inj hv ▸ hfields.1
      · exact ih hfields.2 hv

/-- A member that comes back is visible exactly if it is a text. -/
theorem visibleText?_exact {v : Value} (hv : v.Exact) : visibleText? v = v.text? := by
  cases v with
  | loose gs => exact hv.elim
  | _ => rfl

/-- The member of an entry as a text. -/
theorem field_visible {v : Value} (hv : v.Exact) (name : String) :
    (v.field? name).bind visibleText? = (v.field? name).bind (·.text?) := by
  cases v with
  | object fields =>
      cases hfield : fields.lookup name with
      | none => simp [Value.field?, hfield]
      | some w =>
          simp [Value.field?, hfield, visibleText?_exact (exact_of_lookup hv.2 hfield)]
  | _ => rfl

theorem assetOf_exact {v : Value} (hv : v.Exact) : assetOf v = pairOf? v := by
  rw [assetOf, field_visible hv]
  cases v with
  | object fields =>
      simp only [Value.field?, pairOf?]
      rcases fields.lookup "name" with _ | name <;> rcases fields.lookup "url" with _ | url
      · rfl
      · rfl
      · cases name <;> rfl
      · cases name <;> cases url <;> rfl
  | _ => rfl

theorem isAsset_exact {v : Value} (hv : v.Exact) : isAsset v = (pairOf? v).isSome := by
  rw [← assetOf_exact hv, isAsset, assetOf, field_visible hv, field_visible hv]
  rcases (v.field? "name").bind (·.text?) with _ | name <;>
    rcases (v.field? "url").bind (·.text?) with _ | url <;> rfl

end Listing

/-! ### The description of a release -/

namespace Release

/-- The object that describes a release: its entries, among members of other names. -/
def describing (before : List (String × Value)) (entries : List Value)
    (after : List (String × Value)) : Value :=
  .object (before ++ ("assets", .array entries) :: after)

/-- The text that describes a release. -/
def textOf (before : List (String × Value)) (entries : List Value)
    (after : List (String × Value)) : String :=
  String.ofList (Json.dump (describing before entries after))

end Release

namespace Listing

open Release (describing textOf)

variable {before after : List (String × Value)} {entries : List Value}

theorem exact_of_mem {v : Value} (hentries : Json.ExactItems entries) (hv : v ∈ entries) :
    v.Exact := by
  induction entries with
  | nil => cases hv
  | cons w entries ih =>
      rcases List.mem_cons.1 hv with rfl | hv
      · exact hentries.1
      · exact ih hentries.2 hv

/-- The entries of a release are its member of that name. -/
theorem field_describing (hv : (describing before entries after).Exact) :
    (describing before entries after).field? "assets" = some (.array entries) := by
  have hnew : before.lookup "assets" = none := by
    rw [List.lookup_eq_none_iff]
    intro f hf
    have hne := Json.notMem_of_nodup hv.1
    exact bne_iff_ne.2 fun heq => hne (heq ▸ List.mem_map_of_mem hf)
  rw [describing, Value.field?, List.lookup_append, hnew]
  rfl

/-- **The listing of a release that was written** has the name and the URL of every entry that is an
asset, in order. -/
theorem ofText_describing (hv : (describing before entries after).Exact)
    (hdepth : (describing before entries after).depth ≤ Json.depthLimit) :
    ofText (textOf before entries after) =
      .ok (.assets (entries.filterMap pairOf?) (entries.countP fun e => (pairOf? e).isNone)) := by
  have hfield := field_describing hv
  have hentries : (Value.array entries).Exact := exact_of_lookup hv.2 hfield
  have hfound : entries.filterMap assetOf = entries.filterMap pairOf? :=
    List.filterMap_congr fun e he => assetOf_exact (exact_of_mem hentries he)
  have hdropped : (entries.countP fun e => !isAsset e) =
      entries.countP fun e => (pairOf? e).isNone :=
    List.countP_congr fun e he => by
      rw [isAsset_exact (exact_of_mem hentries he)]
      cases pairOf? e <;> simp
  rw [ofText, textOf, Json.parse_dump hv hdepth]
  simp only [ofValue, hfield, hfound, hdropped]

/-- A value without a list of entries describes no release. -/
theorem ofText_other {body : String} {v : Value} (hparse : Json.parse body = .ok v)
    (hassets : ∀ entries, v.field? "assets" ≠ some (.array entries)) :
    ofText body = .ok (.withoutAssets body) := by
  rw [ofText, hparse]
  -- by `hassets`, the listing of the value is the second case
  simp only [ofValue]

/-- A text that is no value is malformed, unless it is nested too deeply. -/
theorem ofText_fault {body : String} {f : Json.Fault} (hparse : Json.parse body = .error f)
    (hdeep : ∀ isObject, f ≠ .tooDeep isObject) :
    ofText body = .ok (.malformed (Json.describe body f)) := by
  rw [ofText, hparse]
  cases f with
  | tooDeep isObject => exact absurd rfl (hdeep isObject)
  | _ => rfl

end Listing

/-! ### What a lookup is answered -/

namespace Session

variable {α β : Type} {x : Session α} {k : α → Session β} {w w' : World} {out : Except Failure β}

/-- If an answer was taken after a step that takes none, the step succeeded. -/
theorem bind_answered (hx : x.Local) (h : (x >>= k).perform w = (out, w'))
    (hanswers : w'.answers ≠ w.answers) :
    ∃ a v, v.answers = w.answers ∧ (k a).perform v = (out, w') := by
  have htraffic : (x.perform w).2.answers = w.answers := congrArg Traffic.answers (hx.traffic w)
  rw [perform_bind] at h
  split at h
  · next a v hfirst =>
    rw [hfirst] at htraffic
    exact ⟨a, v, htraffic, h⟩
  · next f v hfirst =>
    rw [hfirst] at htraffic
    obtain ⟨-, rfl⟩ := Prod.mk.inj h
    exact absurd htraffic hanswers

/-- What comes after the last answer takes none. -/
theorem bind_local (hk : ∀ a, (k a).Local) (h : (x >>= k).perform w = (out, w')) :
    ∃ r v, x.perform w = (r, v) ∧ w'.answers = v.answers ∧
      ∀ a, r = .ok a → (k a).perform v = (out, w') := by
  rcases hfirst : x.perform w with ⟨r, v⟩
  rw [perform_bind, hfirst] at h
  refine ⟨r, v, rfl, ?_⟩
  cases r with
  | ok a =>
      have htraffic := congrArg Traffic.answers ((hk a).traffic v)
      simp only at h
      rw [h] at htraffic
      exact ⟨htraffic, fun b hb => Except.ok.inj hb ▸ h⟩
  | error f =>
      obtain ⟨-, rfl⟩ := Prod.mk.inj h
      exact ⟨rfl, nofun⟩

end Session

namespace Client

/-- Asking for a text takes the next answer; a success gives its text. -/
theorem askText_told {q : Request} {r : Reply} {w w' : World} {out : Except Failure String}
    (h : (askText q).perform w = (out, w')) (hanswers : w.answers = .reply r :: w'.answers)
    (hstatus : r.status = 200) : out = .ok r.text := by
  unfold askText wrapNetwork at h
  simp only [perform_bind, perform_attempt, perform_send, hanswers, perform_pure, hstatus] at h
  exact (Prod.mk.inj h).1.symm

/-- **A text that was answered with success is got.** -/
theorem getText_told {c : Client} {h : Host} {url : String} {o : Options} {r : Reply}
    {w w' : World} {out : Except Failure String} (hrun : (c.getText h url o).perform w = (out, w'))
    (hanswers : w.answers = .reply r :: w'.answers) (hstatus : r.status = 200) :
    out = .ok r.text := by
  have htaken {v : World} (hv : v.answers = w.answers) : w'.answers ≠ v.answers := by
    rw [hv, hanswers]
    exact (List.cons_ne_self _ _).symm
  rw [getText_eq] at hrun
  obtain ⟨_, w₁, h₁, hrun⟩ := bind_answered (.log _ _ _) hrun (htaken rfl)
  obtain ⟨headers, w₂, h₂, hrun⟩ := bind_answered (.give _) hrun (htaken h₁)
  obtain ⟨proxy, w₃, h₃, hrun⟩ :=
    bind_answered (Proxy.forRequest_quiet h url o).isLocal hrun (htaken (h₂.trans h₁))
  obtain ⟨_, w₄, h₄, hrun⟩ :=
    bind_answered (noteProxy_quiet proxy).isLocal hrun (htaken (h₃.trans (h₂.trans h₁)))
  exact askText_told hrun ((h₄.trans (h₃.trans (h₂.trans h₁))).trans hanswers) hstatus

end Client

namespace Release

/-- What a lookup of a name makes of a listing. -/
def verdict (name : String) : Listing → Except Failure Asset
  | .malformed detail => .error (.problem (.malformedResponse s!"Malformed API response: {detail}"))
  | .withoutAssets body =>
    .error (.problem
      (.badResponse s!"Bad API response: {String.ofList (body.toList.take shownLimit)}"))
  | .assets found _ =>
    match found.find? fun a => a.name == name with
    | some a => .ok a
    | none => .error (.problem (.assetNotFound name))

theorem pick_verdict (listing : Listing) (name : String) (w : World) :
    ((pick listing name).perform w).1 = verdict name listing := by
  cases listing with
  | malformed detail => rfl
  | withoutAssets body => rfl
  | assets found dropped =>
      simp only [pick, verdict, Listing.find?, Listing.found]
      cases found.find? fun a => a.name == name <;> rfl

/-- A listing that can be read is read. -/
theorem readListing_told {body : String} {listing : Listing} (h : Listing.ofText body = .ok listing)
    (w : World) : ∃ v, (readListing body).perform w = (.ok listing, v) := by
  rw [readListing, h]
  cases listing with
  | malformed detail => exact ⟨_, rfl⟩
  | withoutAssets body => exact ⟨_, rfl⟩
  | assets found dropped =>
      simp only [give, pure_bind]
      split
      · exact ⟨_, rfl⟩
      · exact ⟨_, rfl⟩

/-- **A lookup ends with the verdict on the listing** of the text that it was answered. -/
theorem locate_told {c : Client} {h : Host} {q : Query} {r : Reply} {listing : Listing}
    {w w' : World} {out : Except Failure Asset} (hrun : (locate c h q).perform w = (out, w'))
    (hanswers : w.answers = .reply r :: w'.answers) (hstatus : r.status = 200)
    (hlisting : Listing.ofText r.text = .ok listing) : out = verdict q.asset listing := by
  have hlocal (body : String) : (readListing body >>= fun listing => pick listing q.asset).Local :=
    .bind (readListing_quiet body).isLocal fun listing => (pick_quiet listing q.asset).isLocal
  have htaken : w'.answers ≠ w.answers := by
    rw [hanswers]
    exact (List.cons_ne_self _ _).symm
  obtain ⟨_, w₁, h₁, hrun⟩ := bind_answered (.log _ _ _) hrun htaken
  obtain ⟨result, w₂, hget, h₂, hrest⟩ := bind_local hlocal hrun
  obtain rfl := Client.getText_told hget ((h₁.trans hanswers).trans (by rw [h₂])) hstatus
  obtain ⟨w₃, hread⟩ := readListing_told hlisting w₂
  have hpick := hrest _ rfl
  rw [perform_bind, hread] at hpick
  rw [← pick_verdict listing q.asset w₃]
  exact (congrArg Prod.fst hpick).symm

/-- **A lookup is exact.**  The text of a release is listed as the name and the URL of every entry
that is an asset, in order, and a lookup that is answered with it finds the first one of the name
that was asked for, if there is one.  A text whose value has no list of entries is no release, and a
text that has no value is malformed. -/
theorem locate_exact :
    (∀ (before : List (String × Value)) (entries : List Value) (after : List (String × Value)),
      (describing before entries after).Exact →
      (describing before entries after).depth ≤ Json.depthLimit →
      Listing.ofText (textOf before entries after) =
        .ok (.assets (entries.filterMap Listing.pairOf?)
          (entries.countP fun e => (Listing.pairOf? e).isNone))) ∧
    ∀ {c : Client} {h : Host} {q : Query} {r : Reply} {w w' : World} {out : Except Failure Asset},
      (locate c h q).perform w = (out, w') → w.answers = .reply r :: w'.answers → r.status = 200 →
      (∀ (before : List (String × Value)) (entries : List Value) (after : List (String × Value)),
        (describing before entries after).Exact →
        (describing before entries after).depth ≤ Json.depthLimit →
        r.text = textOf before entries after →
        out = match (entries.filterMap Listing.pairOf?).find? fun a => a.name == q.asset with
          | some a => .ok a
          | none => .error (.problem (.assetNotFound q.asset))) ∧
      (∀ v, Json.parse r.text = .ok v →
        (∀ entries, v.field? "assets" ≠ some (.array entries)) →
        out = .error (.problem (.badResponse
          s!"Bad API response: {String.ofList (r.text.toList.take shownLimit)}"))) ∧
      ∀ f, Json.parse r.text = .error f → (∀ isObject, f ≠ .tooDeep isObject) →
        out = .error (.problem (.malformedResponse
          s!"Malformed API response: {Json.describe r.text f}")) := by
  refine ⟨fun _ _ _ hv hdepth => Listing.ofText_describing hv hdepth, ?_⟩
  intro c h q r w w' out hrun hanswers hstatus
  refine ⟨?_, ?_, ?_⟩
  · intro before entries after hv hdepth htext
    have hlisting := Listing.ofText_describing hv hdepth
    rw [← htext] at hlisting
    exact locate_told hrun hanswers hstatus hlisting
  · intro v hparse hassets
    exact locate_told hrun hanswers hstatus (Listing.ofText_other hparse hassets)
  · intro f hparse hdeep
    exact locate_told hrun hanswers hstatus (Listing.ofText_fault hparse hdeep)

/-- The entries of a release: junk, a name of another case, and the same name twice. -/
def mixedEntries : List Value :=
  [.null, .object [("name", .string "T"), ("url", .string "0")],
    .object [("name", .string "t"), ("url", .integer (-7))],
    .object [("name", .string "t"), ("url", .string "\u00e4\n1")],
    .object [("name", .string "t"), ("url", .string "2")]]

/-- The text of a release of these entries. -/
def mixedText : String := textOf [("id", .integer 12)] mixedEntries []

/-- A world in which the next answer is a text of success. -/
def answering (text : String) : World :=
  ⟨⟨[], []⟩, [.reply ⟨200, [], text, []⟩], [], [], [], [], ""⟩

/-- A lookup that is answered with a text of success. -/
def answeredWith (text : String) : Except Failure Asset × World :=
  (locate .own ⟨"linux", "x86_64", []⟩
    ⟨"owner/tool", "v1", "t", none, "binfetch", "ghe.example", none⟩).perform (answering text)

/-- A release that was written is looked up, a list is no release, and a page is no value. -/
theorem locate_exact_answered :
    (answeredWith mixedText).1 = .ok ⟨"t", "\u00e4\n1"⟩ ∧
    (answeredWith "[1, 2]").1 = .error (.problem (.badResponse "Bad API response: [1, 2]")) ∧
    (answeredWith "<html>").1 = .error (.problem (.malformedResponse
      "Malformed API response: Expecting value: line 1 column 1 (char 0)")) := by
  have hrun (text : String) : answeredWith text = ((answeredWith text).1, (answeredWith text).2) :=
    rfl
  have hanswers (text : String) (h : (answeredWith text).2.answers = []) :
      (answering text).answers = .reply ⟨200, [], text, []⟩ :: (answeredWith text).2.answers := by
    rw [h]
    rfl
  have hexact : (describing [("id", .integer 12)] mixedEntries []).Exact := by
    have hfew {n : Nat} (hn : n < 10 ^ 2) : n < Nat.pow 10 Numeral.digitLimit := by
      rw [Nat.pow_eq]
      exact Nat.lt_of_lt_of_le hn (Nat.pow_le_pow_right (by decide) (by decide))
    have hseven := hfew (by decide : 7 < 10 ^ 2)
    have htwelve := hfew (by decide : 12 < 10 ^ 2)
    simp [describing, mixedEntries, Value.Exact, Json.ExactItems, Json.ExactFields, hseven,
      htwelve, -Nat.pow_eq]
  have hfound := (locate_exact.2 (hrun mixedText) (hanswers _ (by decide +kernel)) rfl).1
    [("id", .integer 12)] mixedEntries [] hexact (by decide) rfl
  have hlist := (locate_exact.2 (hrun "[1, 2]") (hanswers _ (by decide +kernel)) rfl).2.1
    (.array [.integer 1, .integer 2]) (by rfl) nofun
  have hpage := (locate_exact.2 (hrun "<html>") (hanswers _ (by decide +kernel)) rfl).2.2
    (.at .value 6) (by rfl) nofun
  exact ⟨hfound, hlist, hpage⟩

end Release

end ReleaseFetch
