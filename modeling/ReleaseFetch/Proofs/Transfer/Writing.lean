/-
**Keeping a response where there is room for it.**

Where the directory of a destination is there, the destination is no directory, and a private file
has room beside it, nothing but the body itself decides how a response is kept: a body that is read
to its end stands at the destination afterwards, and one that breaks off is reported and leaves
nothing there.  Links may stand anywhere.

Main definitions:

* `ReleaseFetch.Chunk.gather` — the bytes of a body, or the failure that it breaks off with;
* `ReleaseFetch.Reply.keepResult`, `ReleaseFetch.Reply.left` — what keeping a response ends with,
  and what it leaves at the destination;
* `ReleaseFetch.Stream.Opened` — a private file that was made for a destination;
* `ReleaseFetch.Stream.Accepts` — a disk on which there is room for a destination.

Main results:

* `ReleaseFetch.Files.discard_clears` — what is discarded is gone;
* `ReleaseFetch.Stream.openPartial_room` — a private file is made;
* `ReleaseFetch.Stream.receive_gather` — a body is written up to where it breaks off;
* `ReleaseFetch.Disk.replace_room` — a file is moved to where there is room for it;
* `ReleaseFetch.Stream.keep_room` — what keeping a response ends with, and what it leaves.
-/

import ReleaseFetch.Proofs.Transfer.Landing

set_option autoImplicit false

namespace ReleaseFetch

open Disk Session

/-! ### Bodies -/

/-- The bytes of chunks, or the failure of the first one that fails. -/
def Chunk.gather : List Chunk → Except Failure (List UInt8)
  | [] => .ok []
  | .bytes b :: rest => (gather rest).map (b ++ ·)
  | .failure f :: _ => .error f

namespace Reply

/-- What keeping a response ends with: what the network reports is wrapped. -/
def keepResult (r : Reply) : Except Failure Unit :=
  match Chunk.gather r.chunks with
  | .ok _ => .ok ()
  | .error f =>
    .error (if f.isNetwork then .problem (.transport s!"Download interrupted: {f.message}") else f)

/-- What stands at the destination when a response was kept: the body, or nothing if it broke off.
An interrupt leaves what stood there. -/
def left (r : Reply) (before : Option Entry) : Option Entry :=
  match Chunk.gather r.chunks with
  | .ok b => some (.file b privateMode)
  | .error f => if f.isInterrupt then before else none

end Reply

/-! ### Places -/

namespace Disk

variable {d : Disk} {p : Path} {q : Place}

/-- A file that is put at a place where none or another one stood is found there, and nothing else
changes. -/
theorem find_put_file {l : Location} {x : Option Entry} (h : d.find false p = .ok ⟨l, x⟩)
    (hold : ∀ y, x = some y → ∃ b m, y = .file b m) (b : List UInt8) (m : Nat) :
    (d.put l (.file b m)).find false p = .ok ⟨l, some (.file b m)⟩ ∧
      d.RoutesIn (d.put l (.file b m)) ∧ ∀ a, a ≠ l → (d.put l (.file b m)).get? a = d.get? a := by
  obtain ⟨⟨b', m', hfind⟩, hroutes, -⟩ := fileAt_put h hold b m
  have hx : x ≠ some .directory := by
    intro hdir
    obtain ⟨b', m', hy⟩ := hold _ hdir
    cases hy
  have hvacant : d.get? l ≠ some .directory := by
    rw [show d.get? l = x from find_entry h hx]
    exact hx
  have hturned := turned_put hvacant b m
  have hentry : (d.put l (.file b m)).get? l = some (.file b' m') := find_entry hfind (by simp)
  rw [hturned.shows] at hentry
  rw [hfind, hentry]
  exact ⟨rfl, hroutes, fun a ha => hturned.other ha⟩

/-- Bytes are written to the end of a file that is found. -/
theorem append_found {l : Location} {b : List UInt8} {m : Nat}
    (h : d.find false p = .ok ⟨l, some (.file b m)⟩) (more : List UInt8) :
    d.append p more = .ok (d.put l (.file (b ++ more) m)) := by
  have htrue : d.find true p = .ok ⟨l, some (.file b m)⟩ := by
    rcases d.find_false p with ⟨k, t, hlink⟩ | heq
    · rw [h] at hlink
      cases hlink
    · exact heq.symm.trans h
  rw [append, status_eq_ok_iff.2 ⟨htrue, by simp⟩]

/-- **A file is moved to where there is room for it.** -/
theorem replace_room {temporary destination : Path} {l : Location} {b : List UInt8} {m : Nat}
    (h : d.find false temporary = .ok ⟨l, some (.file b m)⟩)
    (hq : d.find false destination = .ok q) (hdir : q.entry ≠ some .directory)
    (hends : endsInName temporary = true) (hends' : endsInName destination = true) :
    ∃ e, d.replace temporary destination = .ok e ∧ e.get? q.location = some (.file b m) := by
  have hnul := noNul_of_found h
  have hnul' := noNul_of_found hq
  have hlocate : d.locate false temporary = .ok ⟨l, some (.file b m)⟩ := by
    unfold find at h
    rw [hnul] at h
    cases hl : d.locate false temporary with
    | error e => simp [hl] at h
    | ok place => simpa [hl] using h
  have hlocate' : d.locate false destination = .ok q := by
    unfold find at hq
    rw [hnul'] at hq
    cases hl : d.locate false destination with
    | error e => simp [hl] at hq
    | ok place => simpa [hl] using hq
  have herased : Turned l none d (d.erase l) := by
    refine turned_erase ?_
    rw [show d.get? l = _ from find_entry h (by simp)]
    simp
  have hvacant : (d.erase l).get? q.location ≠ some .directory := by
    by_cases hl : q.location = l
    · rw [hl, herased.shows]
      simp
    · rw [herased.other hl, find_entry hq hdir]
      exact hdir
  refine ⟨(d.erase l).put q.location (.file b m), ?_, (turned_put hvacant b m).shows⟩
  simp [replace, hnul, hnul', hlocate, hlocate', hends, hends', hdir]

end Disk

/-! ### Removal -/

/-- **What is discarded is gone**, unless it is a directory, nothing else changes, and nothing
fails. -/
theorem Files.discard_clears {p : Path} {q : Place} {w : World}
    (h : w.disk.find false p = .ok q) (hq : q.entry ≠ some .directory) :
    (∃ b, ((discard p).perform w).1 = .ok b) ∧
      Turned q.location none w.disk ((discard p).perform w).2.disk := by
  refine ⟨discard_ok (noNul_of_found h), ?_⟩
  rcases discard_disk p w with hunlink | ⟨⟨f, hunlink⟩, hsame⟩
  · obtain ⟨q', hq', -, -, hturned⟩ := unlink_turned hunlink
    obtain rfl := Except.ok.inj (h.symm.trans hq')
    exact hturned
  · -- only where nothing stands a removal fails
    have hnone : q.entry = none := by
      unfold unlink at hunlink
      rw [h] at hunlink
      simp only at hunlink
      split at hunlink
      · next hnone => exact hnone
      · next hdir => exact absurd hdir hq
      · cases hunlink
    have hvacant : w.disk.get? q.location = none := (find_entry h hq).trans hnone
    rw [hsame]
    exact ⟨rfl, fun _ => rfl, hvacant, fun x hx => (Option.some_ne_none x hx.symm).elim,
      fun hdir => by rw [hvacant] at hdir; cases hdir⟩

/-- What stands under another name stays when a file is discarded. -/
theorem Files.discard_other {p : Path} {a : Location} {w : World} (hends : endsInName p = true)
    (hdot : p.name ≠ ".") (ha : ∀ k, a ≠ p.name :: k) :
    ((discard p).perform w).2.disk.get? a = w.disk.get? a := by
  rcases discard_disk p w with hunlink | ⟨-, hsame⟩
  · obtain ⟨q, hq, -, -, hturned⟩ := unlink_turned hunlink
    obtain ⟨k, hk⟩ := location_of_endsInName hends hdot hq
    exact hturned.other (hk ▸ ha k)
  · rw [hsame]

namespace Stream

/-! ### The private file -/

/-- **A private file is made**, if one of its names is free and those before it can be looked up. -/
theorem openPartial_room {directory destination : Path} {left n : Nat} {l : Location} {w : World}
    (hleft : left ≤ attemptLimit) (hge : attemptLimit - left ≤ n) (hlt : n < attemptLimit)
    (hfound : ∀ i < n, ∃ q, w.disk.find false (partialPath directory destination i) = .ok q)
    (hfree : w.disk.find false (partialPath directory destination n) = .ok ⟨l, none⟩) :
    ∃ n l, w.disk.find false (partialPath directory destination n) = .ok ⟨l, none⟩ ∧
      (openPartial directory destination left).perform w =
        (.ok (partialPath directory destination n),
          { w with disk := w.disk.put l (.file [] privateMode) }) := by
  induction left with
  | zero => omega
  | succ left ih =>
      obtain ⟨⟨m, x⟩, hq⟩ : ∃ q, w.disk.find false
          (partialPath directory destination (attemptLimit - (left + 1))) = .ok q := by
        rcases Nat.lt_or_eq_of_le hge with hbefore | heq
        · exact hfound _ hbefore
        · exact ⟨_, heq ▸ hfree⟩
      unfold openPartial
      simp only [perform_bind, perform_get, perform_give]
      cases x with
      | none =>
          refine ⟨_, m, hq, ?_⟩
          rw [createNew, hq]
          rfl
      | some x =>
          -- the name is taken, so the free one comes later
          have hne : attemptLimit - (left + 1) ≠ n := by
            rintro rfl
            rw [hq] at hfree
            cases hfree
          obtain ⟨n', l', hn', hperform⟩ := ih (by omega) (by omega)
          refine ⟨n', l', hn', ?_⟩
          rw [createNew, hq]
          exact hperform

/-- **A body is written up to where it breaks off**, to the end of a file that is found. -/
theorem receive_gather {p : Path} {l : Location} {m : Nat} (chunks : List Chunk) {b : List UInt8}
    {w : World} (h : w.disk.find false p = .ok ⟨l, some (.file b m)⟩) :
    ∃ e got, (receive p chunks).perform w =
        ((Chunk.gather chunks).map fun _ => (), { w with disk := e }) ∧
      e.find false p = .ok ⟨l, some (.file (b ++ got) m)⟩ ∧
      (∀ bytes, Chunk.gather chunks = .ok bytes → bytes = got) ∧
      (∀ a, a ≠ l → e.get? a = w.disk.get? a) ∧ w.disk.RoutesIn e := by
  induction chunks generalizing b w with
  | nil =>
      refine ⟨w.disk, [], rfl, ?_, fun bytes hbytes => (Except.ok.inj hbytes).symm, fun _ _ => rfl,
        .refl _⟩
      rw [List.append_nil]
      exact h
  | cons c rest ih =>
      cases c with
      | failure f =>
          refine ⟨w.disk, [], rfl, ?_, (fun bytes hbytes => by cases hbytes), fun _ _ => rfl,
            .refl _⟩
          rw [List.append_nil]
          exact h
      | bytes more =>
          obtain ⟨hput, hroutes, hsame⟩ := find_put_file h
            (fun y hy => ⟨b, m, (Option.some.inj hy).symm⟩) (b ++ more) m
          obtain ⟨e, got, hperform, hfind, hgot, hother, hroutes'⟩ := ih (w := { w with
            disk := w.disk.put l (.file (b ++ more) m) }) hput
          refine ⟨e, more ++ got, ?_, ?_, ?_, ?_, hroutes.trans hroutes'⟩
          · rw [receive, perform_bind, perform_change, append_found h]
            simp only
            rw [hperform, Chunk.gather]
            cases Chunk.gather rest <;> rfl
          · rw [← List.append_assoc]
            exact hfind
          · intro bytes hbytes
            rw [Chunk.gather] at hbytes
            cases hrest : Chunk.gather rest with
            | error f => rw [hrest] at hbytes; cases hbytes
            | ok bytes' =>
                rw [hrest] at hbytes
                rw [← hgot bytes' hrest]
                exact (Except.ok.inj hbytes).symm
          · intro a ha
            rw [hother a ha]
            exact hsame a ha

/-! ### The private file stands beside the destination -/

theorem endsInName_of_isName {p : Path} (hname : p.name ≠ "") (h : IsName p.name) :
    endsInName p = true := by
  simp [endsInName, hname, h.2]

/-- **A private file was made for a destination**: it is found, the destination is found where it
was, and the two have names of their own. -/
structure Opened (temporary destination : Path) (l : Location) (q : Place) (d e : Disk) :
    Prop where
  free : d.find false temporary = .ok ⟨l, none⟩
  made : e.find false temporary = .ok ⟨l, some (.file [] privateMode)⟩
  found : e.find false destination = .ok q
  vacant : q.entry ≠ some .directory
  same : ∀ a, a ≠ l → e.get? a = d.get? a
  made_ends : endsInName temporary = true
  found_ends : endsInName destination = true
  name_ne_dot : temporary.name ≠ "."
  apart : ∀ k, q.location ≠ temporary.name :: k

/-- The destination and the private file stand at places of their own. -/
theorem Opened.ne {temporary destination : Path} {l : Location} {q : Place} {d e : Disk}
    (h : Opened temporary destination l q d e) : q.location ≠ l := by
  obtain ⟨k, rfl⟩ := location_of_endsInName h.made_ends h.name_ne_dot h.made
  exact h.apart k

/-- A private file that is put at a free name is made for its destination. -/
theorem opened_put {directory destination : Path} {n : Nat} {l : Location} {q : Place} {d : Disk}
    (hname : destination.name ≠ "") (hq : d.find false destination = .ok q)
    (hdir : q.entry ≠ some .directory)
    (hfree : d.find false (partialPath directory destination n) = .ok ⟨l, none⟩) :
    Opened (partialPath directory destination n) destination l q d
      (d.put l (.file [] privateMode)) := by
  obtain ⟨hnames, hisName⟩ := isName_of_find hq hdir
  -- the private file has a name of its own
  have hpartialName := name_partialPath directory destination n
  have hpartial : (partialPath directory destination n).name ≠ "" := by
    intro hempty
    have hlength := partialName_length destination.name n
    rw [← hpartialName, hempty] at hlength
    exact absurd hlength (by simp)
  have hends := endsInName_of_isName hpartial (hpartialName ▸ isName_partialName _ n)
  have hdot : (partialPath directory destination n).name ≠ "." :=
    hpartialName ▸ (isName_partialName _ n).1
  have hother : ∀ k, q.location ≠ (partialPath directory destination n).name :: k := by
    intro k heq
    obtain ⟨m, hm⟩ := find_name hisName hnames hq
    rw [hm, hpartialName] at heq
    exact partialName_ne _ n (List.cons.inj heq).1.symm
  have hne : q.location ≠ l := by
    obtain ⟨k, rfl⟩ := location_of_endsInName hends hdot hfree
    exact hother k
  obtain ⟨hput, hroutes, hsame⟩ := find_put_file hfree (fun y hy => by cases hy) [] privateMode
  refine ⟨hfree, hput, ?_, hdir, hsame, hends,
    endsInName_of_isName hname hisName, hdot, hother⟩
  rw [hroutes.find hq (.inl rfl), Place.on_of_ne _ hdir, hsame _ hne, find_entry hq hdir]

/-! ### The body comes to its destination -/

section Room

variable {r : Response} {temporary destination : Path} {l : Location} {q : Place} {d : Disk}
  {w : World}

/-- **A body that is read to its end is moved to its destination**; one that breaks off leaves what
came of it in the private file, and the rest as it was. -/
theorem fill_room (h : Opened temporary destination l q d w.disk) :
    (∃ b w', Chunk.gather r.reply.chunks = .ok b ∧
      (fill r temporary destination).perform w = (.ok (), w') ∧
        w'.disk.get? q.location = some (.file b privateMode)) ∨
    ∃ f b w', Chunk.gather r.reply.chunks = .error f ∧
      (fill r temporary destination).perform w = (.error f, w') ∧
        w'.disk.find false destination = .ok q ∧
        w'.disk.find false temporary = .ok ⟨l, some (.file b privateMode)⟩ ∧
        ∀ a, a ≠ l → w'.disk.get? a = w.disk.get? a := by
  obtain ⟨v, hdisk, hv⟩ := fill_reads r temporary destination w
  rw [← hdisk] at h ⊢
  obtain ⟨e, got, hperform, hfind, hgot, hother, hroutes⟩ := receive_gather r.reply.chunks h.made
  have hq : e.find false destination = .ok q := by
    have hsame : q.on e = q := by
      rw [Place.on_of_ne e h.vacant, hother _ h.ne, find_entry h.found h.vacant]
    rw [hroutes.find h.found (.inl rfl), hsame]
  rw [hv, perform_bind, hperform]
  cases hgather : Chunk.gather r.reply.chunks with
  | error f => exact .inr ⟨f, _, _, rfl, rfl, hq, hfind, hother⟩
  | ok b =>
      obtain rfl := hgot b hgather
      rw [List.nil_append] at hfind
      obtain ⟨e', hreplace, hfile⟩ :=
        replace_room hfind hq h.vacant h.made_ends h.found_ends
      refine .inl ⟨b, { v with disk := e' }, rfl, ?_, hfile⟩
      simp only [Except.map, perform_change, hreplace]

/-- **A body that is given up**: its destination is cleared and nothing else changes, unless it was
interrupted. -/
theorem abandon_room (f : Failure) (hq : w.disk.find false destination = .ok q)
    (hdir : q.entry ≠ some .directory) :
    ((abandon destination f).perform w).1 = .error (if f.isNetwork then
        .problem (.transport s!"Download interrupted: {f.message}") else f) ∧
      (f.isInterrupt = true ∧ ((abandon destination f).perform w).2.disk = w.disk ∨
        f.isInterrupt = false ∧
          Turned q.location none w.disk ((abandon destination f).perform w).2.disk) := by
  unfold abandon
  cases hinterrupt : f.isInterrupt with
  | true =>
      have hnetwork : f.isNetwork = false := by
        cases f <;> first | rfl | cases hinterrupt
      simp only [if_true, hnetwork, Bool.false_eq_true, if_false]
      exact ⟨rfl, .inl ⟨trivial, rfl⟩⟩
  | false =>
      simp only [Bool.false_eq_true, if_false]
      rw [perform_bind, perform_log]
      simp only
      obtain ⟨⟨c, hdiscard⟩, hgone⟩ := Files.discard_clears (w := { w with
        journal := w.journal ++
          [⟨.error, .download, s!"Error during download: {f.message}", false⟩] }) hq hdir
      rw [perform_bind]
      rcases hperform : (Files.discard destination).perform _ with ⟨result, w'⟩
      rw [hperform] at hdiscard hgone
      simp only at hdiscard
      subst hdiscard
      simp only
      split
      · exact ⟨rfl, .inr ⟨trivial, hgone⟩⟩
      · exact ⟨rfl, .inr ⟨trivial, hgone⟩⟩

/-- **What becomes of a body**: it stands at its destination, or is given up. -/
theorem settle_room (h : Opened temporary destination l q d w.disk) :
    ((settle r temporary destination).perform w).1 = r.reply.keepResult ∧
      ((settle r temporary destination).perform w).2.disk.get? q.location =
        r.reply.left q.entry := by
  unfold settle Reply.keepResult Reply.left
  rw [perform_bind, perform_attempt]
  rcases fill_room (r := r) h with
    ⟨b, w', hgather, hfill, hfile⟩ | ⟨f, b, w', hgather, hfill, hfind, -, -⟩
  · rw [hfill, hgather]
    exact ⟨rfl, hfile⟩
  · rw [hfill, hgather]
    obtain ⟨hresult, hdisk⟩ := abandon_room f hfind h.vacant
    refine ⟨hresult, ?_⟩
    rcases hdisk with ⟨hinterrupt, hsame⟩ | ⟨hinterrupt, hgone⟩
    · simp only [hinterrupt, if_true]
      rw [hsame, find_entry hfind h.vacant]
    · simp only [hinterrupt, Bool.false_eq_true, if_false]
      exact hgone.shows

/-- What comes after the private file is made: the response ends with what became of its body. -/
theorem conclude_room (h : Opened temporary destination l q d w.disk) :
    ((conclude r temporary destination).perform w).1 = r.reply.keepResult ∧
      ((conclude r temporary destination).perform w).2.disk.get? q.location =
        r.reply.left q.entry := by
  obtain ⟨hresult, hleft⟩ := settle_room (r := r) h
  unfold conclude
  rw [perform_bind, perform_attempt]
  rcases hsettle : (settle r temporary destination).perform w with ⟨out, w'⟩
  rw [hsettle] at hresult hleft
  rw [← hresult, ← hleft]
  simp only
  -- closing the response leaves the disk alone, and the private file has another name
  rw [perform_bind, perform_close]
  simp only
  obtain ⟨c, hdiscard⟩ := Files.discard_ok (w := { w' with
    exchanges := w'.exchanges.modify r.exchange fun x => { x with closed := true } })
    (noNul_of_found h.made)
  have hsame := Files.discard_other (w := { w' with
    exchanges := w'.exchanges.modify r.exchange fun x => { x with closed := true } })
    h.made_ends h.name_ne_dot h.apart
  rw [perform_bind]
  rcases hperform : (Files.discard temporary).perform _ with ⟨result, w''⟩
  rw [hperform] at hdiscard hsame
  simp only at hdiscard hsame
  subst hdiscard
  simp only [perform_give]
  exact ⟨trivial, hsame⟩

/-- **The disk has room for a file at the path**: its directory is there, it has a name and is no
directory itself, and one of the names of the private file is free in the directory of that file,
where those before it can be looked up. -/
structure Accepts (d : Disk) (p : Path) : Prop where
  named : p.name ≠ ""
  parent : d.isDirectory? p.parent = .ok true
  place : ∃ q, d.find false p = .ok q ∧ q.entry ≠ some .directory
  room : ∃ directory, partialDirectory d p = .ok directory ∧
    ∃ n < attemptLimit, (∀ i < n, ∃ q, d.find false (partialPath directory p i) = .ok q) ∧
      ∃ l, d.find false (partialPath directory p n) = .ok ⟨l, none⟩

/-- **What keeping a response ends with, and what it leaves at its destination.** -/
theorem keep_room (h : Accepts w.disk destination) (hq : w.disk.find false destination = .ok q) :
    ((keep r destination).perform w).1 = r.reply.keepResult ∧
      ((keep r destination).perform w).2.disk.get? q.location = r.reply.left q.entry := by
  have hdir : q.entry ≠ some .directory := by
    obtain ⟨q', hq', hdir⟩ := h.place
    rwa [Except.ok.inj (hq.symm.trans hq')]
  obtain ⟨directory, hdirectory, n, hn, hfound, l, hfree⟩ := h.room
  obtain ⟨n, l, hfree, hopen⟩ := openPartial_room (Nat.le_refl _) (by omega) hn hfound hfree
  rw [keep_eq, perform_bind, Files.ensureDirectory_there h.parent]
  simp only
  rw [perform_bind, perform_look, hdirectory]
  simp only
  rw [perform_bind, hopen]
  simp only
  exact conclude_room (w := { w with disk := w.disk.put l (.file [] privateMode) })
    (opened_put h.named hq hdir hfree)

end Room

end Stream

end ReleaseFetch
