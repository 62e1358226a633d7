/-
**Streams that break off.**

A body that breaks off is reported, whatever it breaks off with.  The private file that it was
written to is removed, and what stood at the destination is cleared away; nothing else on the disk
changes, whatever links lead there.  An interrupt is let out before the destination is cleared, so
that a file that stood there stays.

Main results:

* `ReleaseFetch.Stream.prepare_room` — a destination is prepared in a directory that is there;
* `ReleaseFetch.Stream.conclude_broken` — the private file is removed, and the rest is as it was;
* `ReleaseFetch.Stream.keep_broken` — what is left of a response that breaks off;
* `ReleaseFetch.Stream.follow_arrives` — a chain that ends with a success, by induction;
* `ReleaseFetch.Stream.download_broken` — what is left of a download that breaks off.
-/

import ReleaseFetch.Proofs.Transfer.Chains
import ReleaseFetch.Proofs.Transfer.Closing

set_option autoImplicit false

namespace ReleaseFetch

open Disk Session

namespace Stream

section Broken

variable {r : Response} {temporary destination : Path} {l : Location} {q : Place} {d : Disk}
  {w : World} {f : Failure}

/-! ### The destination is prepared -/

/-- **A destination is prepared in a directory that is there**: a private file is made for it, or
nothing at all. -/
theorem prepare_room (hname : destination.name ≠ "")
    (hparent : w.disk.isDirectory? destination.parent = .ok true)
    (hq : w.disk.find false destination = .ok q) (hdir : q.entry ≠ some .directory) :
    (∃ g, (prepare destination).perform w = (.error g, w)) ∨
      ∃ temporary l e, (prepare destination).perform w = (.ok temporary, { w with disk := e }) ∧
        Opened temporary destination l q w.disk e := by
  rcases hprepare : (prepare destination).perform w with ⟨result, v⟩
  cases prepare_prepared hprepare with
  | failed ensured =>
      rw [Files.ensureDirectory_there hparent] at ensured
      obtain rfl := (Prod.mk.inj ensured).2
      exact .inl ⟨_, rfl⟩
  | made n ensured _ hnew =>
      rw [Files.ensureDirectory_there hparent] at ensured
      obtain rfl := (Prod.mk.inj ensured).2
      obtain ⟨l, hfree, -, rfl⟩ := createNew_turned hnew
      exact .inr ⟨_, l, _, rfl, opened_put hname hq hdir hfree⟩

/-! ### The body breaks off -/

/-- A body that breaks off is left in the private file, and besides the two files nothing changes.
The destination is no link, so that the way to the private file does not lead over it. -/
theorem settle_broken (h : Opened temporary destination l q d w.disk)
    (hold : ∀ x, q.entry = some x → ∃ b m, x = .file b m)
    (hbroken : Chunk.gather r.reply.chunks = .error f) :
    (∃ b, ((settle r temporary destination).perform w).2.disk.find false temporary =
        .ok ⟨l, some (.file b privateMode)⟩) ∧
      ∀ a, a ≠ q.location → a ≠ l →
        ((settle r temporary destination).perform w).2.disk.get? a = w.disk.get? a := by
  rcases fill_room (r := r) h with
    ⟨b, w', hgather, -⟩ | ⟨g, b, w', hgather, hfill, hfind, hmade, hother⟩
  · rw [hbroken] at hgather
    cases hgather
  · unfold settle
    rw [perform_bind, perform_attempt, hfill]
    simp only
    rcases (abandon_room g hfind h.vacant).2 with ⟨-, hsame⟩ | ⟨-, hgone⟩
    · rw [hsame]
      exact ⟨⟨b, hmade⟩, fun a _ ha => hother a ha⟩
    · have hentry : w'.disk.get? q.location = q.entry := find_entry hfind h.vacant
      have hroutes := hgone.routesIn fun x hx => hold x (hentry ▸ hx)
      refine ⟨⟨b, ?_⟩, fun a ha ha' => (hgone.other ha).trans (hother a ha')⟩
      rw [hroutes.find hmade (.inl rfl), Place.on_of_ne _ (by simp), hgone.other h.ne.symm,
        find_entry hmade (by simp)]

/-- **The private file is removed** in the end, and besides the destination all is as it was before
that file was made. -/
theorem conclude_broken (h : Opened temporary destination l q d w.disk)
    (hold : ∀ x, q.entry = some x → ∃ b m, x = .file b m)
    (hbroken : Chunk.gather r.reply.chunks = .error f) {a : Location} (ha : a ≠ q.location) :
    ((conclude r temporary destination).perform w).2.disk.get? a = d.get? a := by
  obtain ⟨⟨b, hmade⟩, hother⟩ := settle_broken h hold hbroken
  unfold conclude
  rw [perform_bind, perform_attempt]
  rcases hsettle : (settle r temporary destination).perform w with ⟨out, w'⟩
  rw [hsettle] at hmade hother
  simp only
  rw [perform_bind, perform_close]
  simp only
  obtain ⟨⟨c, hdiscard⟩, hgone⟩ := Files.discard_clears (w := { w' with
    exchanges := w'.exchanges.modify r.exchange fun x => { x with closed := true } }) hmade
      (by simp)
  rw [perform_bind]
  rcases hperform : (Files.discard temporary).perform _ with ⟨result, w''⟩
  rw [hperform] at hdiscard hgone
  simp only at hdiscard hgone
  subst hdiscard
  simp only [perform_give]
  by_cases hal : a = l
  · rw [hal, hgone.shows, find_entry h.free (by simp)]
  · rw [hgone.other hal, hother a ha hal, h.same a hal]

/-- **What is left of a response that breaks off.** -/
theorem keep_broken (hname : destination.name ≠ "")
    (hparent : w.disk.isDirectory? destination.parent = .ok true)
    (hq : w.disk.find false destination = .ok q)
    (hold : ∀ x, q.entry = some x → ∃ b m, x = .file b m)
    (hbroken : Chunk.gather r.reply.chunks = .error f) {out : Except Failure Unit} {w' : World}
    (hout : (keep r destination).perform w = (out, w')) :
    (∃ g, ((prepare destination).perform w).1 = .error g ∧ out = .error g ∧ w'.disk = w.disk) ∨
      ∃ temporary l, ((prepare destination).perform w).1 = .ok temporary ∧
        w.disk.find false temporary = .ok ⟨l, none⟩ ∧ l ≠ q.location ∧
        out = r.reply.keepResult ∧ w'.disk.get? q.location = r.reply.left q.entry ∧
        ∀ a, a ≠ q.location → w'.disk.get? a = w.disk.get? a := by
  have hdir : q.entry ≠ some .directory := by
    intro hdir
    obtain ⟨b, m, hx⟩ := hold _ hdir
    cases hx
  rw [keep_prepare, perform_bind] at hout
  rcases prepare_room hname hparent hq hdir with
    ⟨g, hprepare⟩ | ⟨temporary, l, e, hprepare, hopened⟩
  · rw [hprepare] at hout
    obtain ⟨rfl, rfl⟩ := Prod.mk.inj hout
    exact .inl ⟨g, by rw [hprepare], rfl, rfl⟩
  · rw [hprepare] at hout
    simp only at hout
    obtain ⟨hresult, hleft⟩ := conclude_room (r := r) (w := { w with disk := e }) hopened
    rw [hout] at hresult hleft
    refine .inr ⟨temporary, l, by rw [hprepare], hopened.free, hopened.ne.symm, hresult, hleft,
      fun a ha => ?_⟩
    have hsame := conclude_broken (w := { w with disk := e }) hopened hold hbroken ha
    rwa [hout] at hsame

end Broken

/-! ### A download -/

section Download

variable {h : Host} {o : Options} {destination : Path} {url : String} {w : World}

/-- **A chain that ends with a success comes to its response**, with the disk as it was. -/
theorem follow_arrives (c : Client) (destination : Path) {t : Route} {r : Reply}
    (hroute : route url w.answers = .ok t) (hready : ∀ u ∈ t.urls, Ready h o u)
    (hanswer : t.answer = .reply r) (hstatus : r.status = 200) (first : String) (limit : Int)
    {left : Nat} (hleft : t.passed.length < left) :
    ∃ n v, v.disk = w.disk ∧ (follow c h o destination first limit left url).perform w =
      (keep ⟨r, n⟩ destination >>= fun _ =>
        log .info .download s!"Download complete: {destination.text}").perform v := by
  -- induction on the requests that are left, for every URL and every world the chain goes on in
  induction left generalizing url w t with
  | zero => exact absurd hleft (Nat.not_lt_zero _)
  | succ left ih =>
      rcases route_cases hroute with ⟨reply, rest, location, next, t, hanswers, hlocation, hjoin,
        hrest, rfl⟩ | ⟨a, hanswers, -, rfl⟩
      · obtain ⟨q, u, -, hdisk, hu, -, hfollow⟩ :=
          follow_go c destination first limit left (hready url (by simp [Route.urls])) hanswers
            hlocation hjoin
        obtain ⟨n, v, hv, hkeep⟩ := ih (hu.symm ▸ hrest)
          (fun u hu => hready u (List.mem_cons_of_mem _ hu)) hanswer (Nat.lt_of_succ_lt_succ hleft)
        exact ⟨n, v, hv.trans hdisk, hfollow.trans hkeep⟩
      · obtain rfl : a = .reply r := hanswer
        obtain ⟨rest, hrest⟩ : ∃ rest, w.answers = .reply r :: rest :=
          hanswers.resolve_left fun h => by cases h.2
        obtain ⟨q, v, -, hdisk, -, hfollow⟩ := follow_finish c destination first limit left
          (hready url (by simp [Route.urls])) hrest hstatus
        exact ⟨_, v, hdisk, hfollow⟩

/-- **What is left of a download that breaks off.**  The answers lead to a success whose body breaks
off, and the destination is in a directory that is there and holds a file or nothing.  If a private
file can be made, the download reports what the body broke off with, the private file is gone, and
nothing but the destination has changed.  What stood there is cleared away too, unless the body was
interrupted.  If no private file can be made, the body is not read and the disk stays as it is. -/
theorem download_broken (c : Client) (limit : Int) {t : Route} {r : Reply} {f : Failure}
    {place : Place} (hroute : route url w.answers = .ok t) (hready : ∀ u ∈ t.urls, Ready h o u)
    (hlimit : t.passed.length ≤ limit) (hanswer : t.answer = .reply r) (hstatus : r.status = 200)
    (hbroken : Chunk.gather r.chunks = .error f) (hname : destination.name ≠ "")
    (hparent : w.disk.isDirectory? destination.parent = .ok true)
    (hplace : w.disk.find false destination = .ok place)
    (hold : ∀ x, place.entry = some x → ∃ b m, x = .file b m)
    {out : Except Failure Unit} {w' : World}
    (hout : (download c h limit url destination o).perform w = (out, w')) :
    (∃ g, ((prepare destination).perform w).1 = .error g ∧ out = .error g ∧ w'.disk = w.disk) ∨
      ∃ temporary l, ((prepare destination).perform w).1 = .ok temporary ∧
        w.disk.find false temporary = .ok ⟨l, none⟩ ∧ w'.disk.get? l = none ∧
        out = .error (if f.isNetwork then
          .problem (.transport s!"Download interrupted: {f.message}") else f) ∧
        (∀ a, a ≠ place.location → w'.disk.get? a = w.disk.get? a) ∧
        w'.disk.get? place.location = if f.isInterrupt then place.entry else none := by
  have hleft : t.passed.length < (limit + 1).toNat := by omega
  obtain ⟨n, v, hdisk, hfollow⟩ :=
    follow_arrives c destination hroute hready hanswer hstatus url limit hleft
  have hsame := (prepare_ofDisk destination).result hdisk
  rw [download, hfollow, perform_bind] at hout
  rw [← hdisk] at hparent hplace
  rcases hkeep : (keep ⟨r, n⟩ destination).perform v with ⟨kept, u⟩
  have hend := keep_broken (r := ⟨r, n⟩) hname hparent hplace hold hbroken hkeep
  -- the response was not kept, so that nothing is said to be complete
  obtain ⟨g, rfl⟩ : ∃ g, kept = .error g := by
    rcases hend with ⟨g, -, rfl, -⟩ | ⟨-, -, -, -, -, rfl, -⟩
    · exact ⟨g, rfl⟩
    · rw [Reply.keepResult, hbroken]
      exact ⟨_, rfl⟩
  rw [hkeep] at hout
  obtain ⟨rfl, rfl⟩ := Prod.mk.inj hout
  rw [hsame, hdisk] at hend
  refine hend.imp_right ?_
  rintro ⟨temporary, l, hprepare, hfree, hne, hresult, hleft, hother⟩
  refine ⟨temporary, l, hprepare, hfree, ?_, ?_, hother, ?_⟩
  · rw [hother l hne, find_entry hfree (by simp)]
  · rw [hresult, Reply.keepResult, hbroken]
  · rw [hleft, Reply.left, hbroken]

end Download

/-- A disk with an old file where a download goes, behind a link. -/
def staleDisk : Disk :=
  ⟨[(["kept"], .directory), (["dl"], .link "kept"), (["tool", "kept"], .file [0] 0o644)], []⟩

/-- A redirect, and a body that breaks off after its first part. -/
def brokenAnswers (f : Failure) : List Answer :=
  [.reply ⟨302, [("Location", "/y")], "", []⟩, .reply ⟨200, [], "", [.bytes [1], .failure f]⟩]

/-- The chain that these answers lead over. -/
def brokenRoute (f : Failure) : Route :=
  ⟨["https://a.org/x"], "https://a.org/y", .reply ⟨200, [], "", [.bytes [1], .failure f]⟩⟩

/-- A body that the network breaks off takes the old file with it. -/
theorem download_broken_by_network :
    ∃ w', (download .own ⟨"linux", "x86_64", []⟩ 1 "https://a.org/x" ⟨.here, ["dl", "tool"]⟩
        ⟨[], none, defaultTrustedHost, none⟩).perform
          (World.fresh staleDisk (brokenAnswers (.network .chunk "cut"))) =
        (.error (.problem (.transport "Download interrupted: cut")), w') ∧
      (∀ a, a ≠ ["tool", "kept"] → w'.disk.get? a = staleDisk.get? a) ∧
      w'.disk.get? ["tool", "kept"] = none := by
  rcases hperform : (download .own ⟨"linux", "x86_64", []⟩ 1 "https://a.org/x"
    ⟨.here, ["dl", "tool"]⟩ ⟨[], none, defaultTrustedHost, none⟩).perform
      (World.fresh staleDisk (brokenAnswers (.network .chunk "cut"))) with ⟨out, w'⟩
  have hroute : route "https://a.org/x" (brokenAnswers (.network .chunk "cut")) =
      .ok (brokenRoute (.network .chunk "cut")) := by
    decide +kernel
  have hready : ∀ u ∈ (brokenRoute (.network .chunk "cut")).urls,
      Ready ⟨"linux", "x86_64", []⟩ ⟨[], none, defaultTrustedHost, none⟩ u := by
    intro u hu
    rcases List.mem_pair.1 hu with rfl | rfl
    · exact ⟨[], none, "None", by decide +kernel, by decide +kernel, rfl⟩
    · exact ⟨[], none, "None", by decide +kernel, by decide +kernel, rfl⟩
  have hplace : staleDisk.find false ⟨.here, ["dl", "tool"]⟩ =
      .ok ⟨["tool", "kept"], some (.file [0] 0o644)⟩ := by
    decide +kernel
  rcases download_broken .own 1 hroute hready (by decide) rfl rfl rfl (by decide)
    (by decide +kernel) hplace (fun x hx => ⟨_, _, (Option.some.inj hx).symm⟩) hperform with
    ⟨g, hprepare, -⟩ | ⟨_, _, -, -, -, rfl, hother, hgone⟩
  · have hprepared : ((prepare ⟨.here, ["dl", "tool"]⟩).perform
        (World.fresh staleDisk (brokenAnswers (.network .chunk "cut")))).1 =
          .ok ⟨.single, ["dl", ".tool.XXXXXXXX.part"]⟩ := by
      decide +kernel
    rw [hprepared] at hprepare
    cases hprepare
  · exact ⟨w', rfl, hother, hgone⟩

/-- **A body that is interrupted leaves the old file where it was.** -/
theorem download_keeps_stale :
    ((download .own ⟨"linux", "x86_64", []⟩ 1 "https://a.org/x" ⟨.here, ["dl", "tool"]⟩
        ⟨[], none, defaultTrustedHost, none⟩).perform
          (World.fresh staleDisk (brokenAnswers .interrupt))).1 = .error .interrupt ∧
      ((download .own ⟨"linux", "x86_64", []⟩ 1 "https://a.org/x" ⟨.here, ["dl", "tool"]⟩
        ⟨[], none, defaultTrustedHost, none⟩).perform
          (World.fresh staleDisk (brokenAnswers .interrupt))).2.disk.get? ["tool", "kept"] =
        some (.file [0] 0o644) := by
  decide +kernel

end Stream

end ReleaseFetch
