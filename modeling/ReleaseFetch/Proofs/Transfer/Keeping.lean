/-
**A response that is kept, or leaves no trace.**

The body of a response goes into a private file first, which takes the place of the destination
when it is complete.  Followed through the disk: the private file is gone in the end whatever
happens, a success leaves the whole body at the destination, and a failure leaves there what was
there before, or nothing.

Main definitions:

* `ReleaseFetch.Reply.body?` — the bytes of a body that is read to its end;
* `ReleaseFetch.Stream.Destined` — a path that a response can be kept at;
* `ReleaseFetch.Stream.prepare` — what is done before a body is received;
* `ReleaseFetch.Stream.settle`, `ReleaseFetch.Stream.conclude` — what comes after the private file
  is made;
* `ReleaseFetch.Stream.Prepared` — what preparing a destination comes to.

Main results:

* `ReleaseFetch.Stream.prepare_prepared` — a private file is made, or at most the directory for it;
* `ReleaseFetch.Stream.receive_spec` — what is read so far is in the private file;
* `ReleaseFetch.Stream.fill_spec`, `ReleaseFetch.Stream.abandon_spec` — the private file replaces
  the destination, or the destination is cleared;
* `ReleaseFetch.Stream.keep_spec` — keeping a response changes its destination and no other file,
  and what stands there afterwards is whole or was there before.
-/

import ReleaseFetch.Proofs.Disk.Naming
import ReleaseFetch.Proofs.Disk.Placing

set_option autoImplicit false

namespace ReleaseFetch

open Disk Session

/-- The bytes of chunks, unless one of them fails. -/
def Chunk.bytes? : List Chunk → Option (List UInt8)
  | [] => some []
  | .bytes b :: rest => (bytes? rest).map (b ++ ·)
  | .failure _ :: _ => none

/-- The bytes of a body that is read to its end. -/
def Reply.body? (r : Reply) : Option (List UInt8) := Chunk.bytes? r.chunks

namespace Stream

/-- A path that a response can be kept at. -/
structure Destined (destination : Path) : Prop where
  readable : destination.parent.Readable
  isName : IsName destination.name
  names : destination.names ≠ []

/-- An entry of a readable directory is such a path. -/
theorem destined_child {p : Path} (hp : p.Readable) {name : String} (h : IsEntryName name) :
    Destined (p.child name) := by
  refine ⟨?_, ?_, ?_⟩
  · rw [Path.parent_child p h]
    exact hp
  · rw [Path.name_child p h]
    exact h.isName
  · rw [Path.child_eq p h]
    simp

/-! ### The parts of keeping a response -/

/-- The body becomes the destination, or is given up. -/
def settle (r : Response) (temporary destination : Path) : Session Unit := do
  match ← attempt (fill r temporary destination) with
  | .ok () => pure ()
  | .error f => abandon destination f

/-- What comes after the private file is made: whatever becomes of the body, the response is closed
and the private file removed. -/
def conclude (r : Response) (temporary destination : Path) : Session Unit := do
  let outcome ← attempt (settle r temporary destination)
  close r
  let _ ← Files.discard temporary
  give outcome

/-- **What is done before a body is received**: the directory of the destination is made, and a
private file in it. -/
def prepare (destination : Path) : Session Path := do
  Files.ensureDirectory destination.parent
  let directory ← look (partialDirectory · destination)
  openPartial directory destination attemptLimit

/-- A response is kept by way of a private file. -/
theorem keep_eq (r : Response) (destination : Path) :
    keep r destination = (do
      Files.ensureDirectory destination.parent
      let directory ← look (partialDirectory · destination)
      let temporary ← openPartial directory destination attemptLimit
      conclude r temporary destination) := rfl

/-- A response is kept by way of a private file that is prepared first. -/
theorem keep_prepare (r : Response) (destination : Path) :
    keep r destination = prepare destination >>= fun temporary =>
      conclude r temporary destination := by
  rw [keep_eq, prepare]
  simp only [bind_assoc]

/-- A motion holds of settling a body if it holds of filling the private file and of giving up. -/
theorem settle_moves {T : Motion} {r : Response} {temporary destination : Path}
    (hfill : (fill r temporary destination).Moves T)
    (habandon : ∀ f, (abandon destination f).Moves T) : (settle r temporary destination).Moves T := by
  refine .bind (.attempt hfill) fun result => ?_
  cases result with
  | ok u => exact .pure _
  | error f => exact habandon f

theorem conclude_moves {T : Motion} {r : Response} {temporary destination : Path}
    (hsettle : (settle r temporary destination).Moves T) (hclose : (close r).Moves T)
    (hdiscard : (Files.discard temporary).Moves T) : (conclude r temporary destination).Moves T :=
  .bind (.attempt hsettle) fun outcome => .bind hclose fun _ => .bind hdiscard fun _ =>
    .give outcome

/-! ### The private file -/

/-- A private file is made, or nothing happens. -/
theorem openPartial_cases (directory destination : Path) (left : Nat) (w : World) :
    (∃ n e, w.disk.createNew (partialPath directory destination n) = .ok (some e) ∧
      (openPartial directory destination left).perform w =
        (.ok (partialPath directory destination n), { w with disk := e })) ∨
      ∃ f, (openPartial directory destination left).perform w = (.error f, w) := by
  -- a name that is taken is passed over, and the next one is tried in the same world
  induction left with
  | zero => exact .inr ⟨_, rfl⟩
  | succ left ih =>
      unfold openPartial
      simp only [perform_bind, perform_get, perform_give]
      cases h : w.disk.createNew (partialPath directory destination (attemptLimit - (left + 1))) with
      | error f => exact .inr ⟨f, rfl⟩
      | ok made =>
          cases made with
          | none => exact ih
          | some e => exact .inl ⟨_, e, h, rfl⟩

/-- **What preparing a destination comes to**: to a private file in its directory, or to a failure,
before which at most that directory was made. -/
inductive Prepared (destination : Path) (w : World) : Except Failure Path → World → Prop where
  | failed {result : Except Failure Unit} {f : Failure} {v : World}
      (ensured : (Files.ensureDirectory destination.parent).perform w = (result, v)) :
      Prepared destination w (.error f) v
  | made {directory : Path} {v : World} {e : Disk} (n : Nat)
      (ensured : (Files.ensureDirectory destination.parent).perform w = (.ok (), v))
      (beside : partialDirectory v.disk destination = .ok directory)
      (created : v.disk.createNew (partialPath directory destination n) = .ok (some e)) :
      Prepared destination w (.ok (partialPath directory destination n)) { v with disk := e }

theorem prepare_prepared {destination : Path} {w v : World} {result : Except Failure Path}
    (h : (prepare destination).perform w = (result, v)) : Prepared destination w result v := by
  rw [prepare, perform_bind] at h
  rcases hensure : (Files.ensureDirectory destination.parent).perform w with ⟨ensured, u⟩
  rw [hensure] at h
  cases ensured with
  | error f =>
      obtain ⟨rfl, rfl⟩ := Prod.mk.inj h
      exact .failed hensure
  | ok _ =>
      simp only at h
      rw [perform_bind, perform_look] at h
      cases hdirectory : partialDirectory u.disk destination with
      | error f =>
          rw [hdirectory] at h
          obtain ⟨rfl, rfl⟩ := Prod.mk.inj h
          exact .failed hensure
      | ok directory =>
          rw [hdirectory] at h
          simp only at h
          rcases openPartial_cases directory destination attemptLimit u with
            ⟨n, e, hnew, hopen⟩ | ⟨f, hopen⟩
          · rw [hopen] at h
            obtain ⟨rfl, rfl⟩ := Prod.mk.inj h
            exact .made n hensure hdirectory hnew
          · rw [hopen] at h
            obtain ⟨rfl, rfl⟩ := Prod.mk.inj h
            exact .failed hensure

/-- **What is read so far is in the private file**, and all of it once the reading succeeds. -/
theorem receive_spec {p : Path} {m : Nat} (chunks : List Chunk) {b : List UInt8} {w : World}
    (h : w.disk.Holds p b m) :
    ∃ e got, ((receive p chunks).perform w).2 = { w with disk := e } ∧ e.Holds p (b ++ got) m ∧
      Edited (· = w.disk.locationOf p) w.disk e ∧
      (((receive p chunks).perform w).1 = .ok () → Chunk.bytes? chunks = some got) := by
  -- induction on the chunks, for all bytes that the file may hold before
  induction chunks generalizing b w with
  | nil =>
      refine ⟨w.disk, [], rfl, ?_, Edited.refl h.plain, fun _ => rfl⟩
      rw [List.append_nil]
      exact h
  | cons c rest ih =>
      cases c with
      | failure f =>
          refine ⟨w.disk, [], rfl, ?_, Edited.refl h.plain, fun hok => by cases hok⟩
          rw [List.append_nil]
          exact h
      | bytes more =>
          obtain ⟨hput, hedit⟩ := h.put (b ++ more) m
          have hperform : (receive p (.bytes more :: rest)).perform w =
              (receive p rest).perform
                { w with disk := w.disk.put (w.disk.locationOf p) (.file (b ++ more) m) } := by
            rw [receive, perform_bind, perform_change, h.append]
          obtain ⟨e, got, hw, he, hedit', hok⟩ := ih (w := { w with
            disk := w.disk.put (w.disk.locationOf p) (.file (b ++ more) m) }) hput
          rw [hperform]
          refine ⟨e, more ++ got, hw, ?_, ?_, fun h => ?_⟩
          · rw [← List.append_assoc]
            exact he
          · refine hedit.trans (hedit'.mono fun l hl => ?_)
            rw [hl]
            exact hedit.locationOf p
          · simp [Chunk.bytes?, hok h]

/-! ### The private file becomes the destination -/

/-- Reading starts with a mark on the exchange, which the disk does not see. -/
theorem fill_reads (r : Response) (temporary destination : Path) (w : World) :
    ∃ v : World, v.disk = w.disk ∧ (fill r temporary destination).perform w =
      (receive temporary r.reply.chunks >>= fun _ =>
        change (·.replace temporary destination)).perform v :=
  ⟨((startReading r chunkSize).perform w).2, rfl, rfl⟩

/-- A body that is complete stands at the destination and its private file is gone; a body that is
not leaves the private file alone on the disk. -/
theorem fill_spec {r : Response} {temporary destination : Path} {m : Nat} {w : World}
    (h : w.disk.Holds temporary [] m)
    (hne : w.disk.locationOf destination ≠ w.disk.locationOf temporary) :
    (∃ b w', (fill r temporary destination).perform w = (.ok (), w') ∧
      r.reply.body? = some b ∧ w'.disk.Holds destination b m ∧
      w'.disk.get? (w.disk.locationOf temporary) = none ∧
      Edited (fun l => l = w.disk.locationOf destination ∨ l = w.disk.locationOf temporary)
        w.disk w'.disk) ∨
    ∃ f b w', (fill r temporary destination).perform w = (.error f, w') ∧
      w'.disk.Holds temporary b m ∧ Edited (· = w.disk.locationOf temporary) w.disk w'.disk := by
  obtain ⟨v, hdisk, hfill⟩ := fill_reads r temporary destination w
  rw [← hdisk] at h
  obtain ⟨e, got, hv, he, hedit, hok⟩ := receive_spec r.reply.chunks h
  rw [List.nil_append] at he
  rw [hdisk] at hedit
  rw [hfill, perform_bind]
  rcases hreceive : (receive temporary r.reply.chunks).perform v with ⟨result, w'⟩
  rw [hreceive] at hv hok
  simp only at hv
  subst hv
  cases result with
  | error f => exact .inr ⟨f, got, _, rfl, he, hedit⟩
  | ok u =>
      simp only [perform_change]
      cases hreplace : e.replace temporary destination with
      | error f => exact .inr ⟨f, got, _, rfl, he, hedit⟩
      | ok e' =>
          obtain ⟨hopen, rfl⟩ := replace_ok he.plain hreplace he.file he.names
          have hold := he.isOpen
          rw [hedit.locationOf] at hopen hold
          have hmoved := Edited.replace he.plain hold hopen got m
          obtain ⟨hnames, place, hfound⟩ := replace_found hreplace
          have hholds : ((e.erase (w.disk.locationOf temporary)).put
              (w.disk.locationOf destination) (.file got m)).Holds destination got m := by
            refine ⟨hmoved.plain, ⟨_, hmoved.toWithin.find he.plain hmoved.plain hfound⟩, hnames, ?_⟩
            rw [hmoved.locationOf, hedit.locationOf,
              (hopen.erase hold.vacant hold.ne_nil).get?_put, if_pos rfl]
          refine .inl ⟨got, _, rfl, hok rfl, ?_, ?_, ?_⟩
          · rw [hedit.locationOf, hedit.locationOf]
            exact hholds
          · rw [hedit.locationOf, hedit.locationOf]
            rw [(hopen.erase hold.vacant hold.ne_nil).get?_put, if_neg (Ne.symm hne),
              get?_erase _ _ _ hold.ne_nil, if_pos rfl]
          · rw [hedit.locationOf, hedit.locationOf]
            exact (hedit.mono fun l hl => .inr hl).trans hmoved

/-- What abandoning a body does: it fails, and what stands at the destination is removed or
stays. -/
theorem abandon_spec (destination : Path) (f : Failure) (w : World) :
    ∃ g w', (abandon destination f).perform w = (.error g, w') ∧
      (w'.disk = w.disk ∨ w.disk.unlink destination = .ok w'.disk) := by
  unfold abandon
  cases hf : f.isInterrupt with
  | true => exact ⟨f, w, rfl, .inl rfl⟩
  | false =>
      simp only [Bool.false_eq_true, if_false]
      rw [perform_bind, perform_log]
      simp only
      have hdisk := Files.discard_disk destination { w with
        journal := w.journal ++
          [⟨.error, .download, s!"Error during download: {f.message}", false⟩] }
      rw [perform_bind]
      rcases hdiscard : (Files.discard destination).perform _ with ⟨result, w'⟩
      rw [hdiscard] at hdisk
      have hw' : w'.disk = w.disk ∨ w.disk.unlink destination = .ok w'.disk := by
        rcases hdisk with h | ⟨-, h⟩
        · exact .inr h
        · exact .inl h
      cases result with
      | error g => exact ⟨g, w', rfl, hw'⟩
      | ok b =>
          simp only
          split
          · exact ⟨_, w', rfl, hw'⟩
          · exact ⟨_, w', rfl, hw'⟩

/-! ### Keeping a response -/

/-- A destination does not lead to its private file. -/
theorem locationOf_ne_partialPath {d : Disk} (hd : d.Plain) {destination directory : Path}
    (hparent : destination.parent.Readable)
    (hname : destination.names ≠ [] → IsName destination.name)
    (hdirectory : partialDirectory d destination = .ok directory) (n : Nat) :
    d.locationOf destination ≠ d.locationOf (partialPath directory destination n) := by
  rw [locationOf_partialPath hd hparent hdirectory n]
  by_cases hnames : destination.names = []
  -- the private file of a path without names lies below it
  · rw [(Path.parent_eq_self_iff destination).2 hnames]
    exact List.ne_cons_self
  -- of any other, they lie in one directory under different names
  · rw [d.locationOf_eq_cons hnames (hname hnames)]
    exact fun heq => partialName_ne _ n (List.cons.inj heq).1.symm

/-- The body is in the private file, or the failure is noted: what is left before the private file
is removed. -/
theorem settle_spec {r : Response} {temporary destination : Path} {m : Nat} {w : World}
    (h : w.disk.Holds temporary [] m)
    (hne : w.disk.locationOf destination ≠ w.disk.locationOf temporary) :
    ∃ outcome w', (settle r temporary destination).perform w = (outcome, w') ∧
      Edited (fun l => l = w.disk.locationOf destination ∨ l = w.disk.locationOf temporary)
        w.disk w'.disk ∧
      ((outcome = .ok () ∧ w'.disk.get? (w.disk.locationOf temporary) = none ∧
          ∃ b, r.reply.body? = some b ∧ w'.disk.Holds destination b m) ∨
        (∃ f, outcome = .error f) ∧ (∃ b, w'.disk.Holds temporary b m) ∧
          (w'.disk.get? (w.disk.locationOf destination) = none ∨
            Edited (· = w.disk.locationOf temporary) w.disk w'.disk)) := by
  unfold settle
  rw [perform_bind, perform_attempt]
  simp only
  rcases fill_spec (r := r) h hne with ⟨b, w', hfill, hbody, hfile, hnone, hedit⟩ |
    ⟨f, b, w', hfill, hholds, hedit⟩
  · rw [hfill]
    exact ⟨.ok (), w', rfl, hedit, .inl ⟨rfl, hnone, b, hbody, hfile⟩⟩
  -- the body is given up: the destination is discarded and the private file stays
  · rw [hfill]
    obtain ⟨g, w'', habandon, hdisk⟩ := abandon_spec destination f w'
    simp only
    rw [habandon]
    refine ⟨.error g, w'', rfl, ?_⟩
    have hedit' := hedit.mono (T := fun l =>
      l = w.disk.locationOf destination ∨ l = w.disk.locationOf temporary) fun l hl => .inr hl
    rcases hdisk with heq | hunlink
    · rw [heq]
      exact ⟨hedit', .inr ⟨⟨g, rfl⟩, ⟨b, hholds⟩, .inr hedit⟩⟩
    · obtain ⟨hopen, heq⟩ := unlink_ok hholds.plain hunlink
      rw [hedit.locationOf] at hopen heq
      have herase : Edited (· = w.disk.locationOf destination) w'.disk w''.disk := by
        rw [heq]
        exact Edited.erase hholds.plain hopen.vacant hopen.ne_nil rfl
      have hholds' := hholds.edited herase (by
        rw [hedit.locationOf]
        exact Ne.symm hne)
      refine ⟨hedit'.trans (herase.mono fun l hl => .inl hl), .inr ⟨⟨g, rfl⟩, ⟨b, hholds'⟩, ?_⟩⟩
      left
      rw [heq, get?_erase _ _ _ hopen.ne_nil, if_pos rfl]

/-- What comes after the private file is made: it is gone in the end. -/
theorem conclude_spec {r : Response} {temporary destination : Path} {m : Nat} {w : World}
    (h : w.disk.Holds temporary [] m)
    (hne : w.disk.locationOf destination ≠ w.disk.locationOf temporary) {out : Except Failure Unit}
    {w' : World}
    (hout : (conclude r temporary destination).perform w = (out, w')) :
    Edited (fun l => l = w.disk.locationOf destination ∨ l = w.disk.locationOf temporary)
        w.disk w'.disk ∧
      w'.disk.get? (w.disk.locationOf temporary) = none ∧
      (out = .ok () ∧ (∃ b, r.reply.body? = some b ∧ w'.disk.Holds destination b m) ∨
        (∃ f, out = .error f) ∧ ∀ b k,
          w'.disk.get? (w.disk.locationOf destination) = some (.file b k) →
            w.disk.get? (w.disk.locationOf destination) = some (.file b k)) := by
  obtain ⟨outcome, v, hsettle, hedit, hcases⟩ := settle_spec (r := r) h hne
  rw [conclude, perform_bind, perform_attempt, hsettle] at hout
  simp only at hout
  -- closing the response leaves the disk alone
  obtain ⟨u, hclose, hu⟩ : ∃ u : World, (close r).perform v = (.ok (), u) ∧ u.disk = v.disk :=
    ⟨_, rfl, rfl⟩
  rw [perform_bind, hclose] at hout
  simp only at hout
  rw [← hu] at hedit hcases
  obtain ⟨place, hplace⟩ := h.found
  have hfind : u.disk.find false temporary = .ok ⟨_, u.disk.seen temporary⟩ :=
    hedit.toWithin.find h.plain hedit.plain hplace
  have hloc := hedit.locationOf temporary
  -- after a success the private file has been moved; after a failure it is still there and is
  -- discarded
  rcases hcases with ⟨rfl, hnone, hbody⟩ | ⟨⟨f, rfl⟩, ⟨b, hholds⟩, hdest⟩
  · have hdiscard := Files.discard_none hedit.plain hfind h.names (by rw [hloc]; exact hnone)
    rw [perform_bind, hdiscard] at hout
    simp only [perform_give] at hout
    obtain ⟨rfl, rfl⟩ := Prod.mk.inj hout
    exact ⟨hedit, hnone, .inl ⟨rfl, hbody⟩⟩
  · have hdiscard := Files.discard_file hedit.plain hfind h.names hholds.file
    rw [perform_bind, hdiscard] at hout
    simp only [perform_give] at hout
    obtain ⟨rfl, rfl⟩ := Prod.mk.inj hout
    have hopen := hholds.isOpen
    rw [hloc] at hopen
    have herase : Edited (· = w.disk.locationOf temporary) u.disk
        (u.disk.erase (w.disk.locationOf temporary)) :=
      Edited.erase hedit.plain hopen.vacant hopen.ne_nil rfl
    simp only [hloc]
    refine ⟨hedit.trans (herase.mono fun l hl => .inr hl), ?_, .inr ⟨⟨f, rfl⟩, ?_⟩⟩
    · rw [get?_erase _ _ _ hopen.ne_nil, if_pos rfl]
    · intro b' k hfile
      rw [get?_erase _ _ _ hopen.ne_nil, if_neg hne] at hfile
      rcases hdest with hnone | hsame
      · rw [hnone] at hfile
        cases hfile
      · exact (hsame.file_iff hne b' k).1 hfile

/-- **What keeping a response leaves behind**: the whole body at the destination, or there what was
there before, or nothing; and no private file. -/
theorem keep_spec (r : Response) {destination : Path} (hparent : destination.parent.Readable)
    (hname : destination.names ≠ [] → IsName destination.name) {w : World} (hw : w.disk.Plain) :
    Edited (· = w.disk.locationOf destination) w.disk ((keep r destination).perform w).2.disk ∧
      (((keep r destination).perform w).1 = .ok () ∧ (∃ b, r.reply.body? = some b ∧
          ((keep r destination).perform w).2.disk.Holds destination b privateMode) ∨
        (∃ f, ((keep r destination).perform w).1 = .error f) ∧ ∀ b k,
          ((keep r destination).perform w).2.disk.get? (w.disk.locationOf destination) =
              some (.file b k) →
            w.disk.get? (w.disk.locationOf destination) = some (.file b k)) := by
  have hensure := Files.ensureDirectory_edited destination.parent hw
  rw [keep_prepare, perform_bind]
  rcases hprepare : (prepare destination).perform w with ⟨result, v⟩
  cases prepare_prepared hprepare with
  | failed ensured =>
      rw [ensured] at hensure
      exact ⟨hensure.mono fun _ hl => hl.elim,
        .inr ⟨⟨_, rfl⟩, fun b k => (hensure.file_iff id b k).1⟩⟩
  | @made directory u e n ensured hdirectory hnew =>
      rw [ensured] at hensure
      simp only at hensure ⊢
      obtain ⟨hholds, hvacant, hmade⟩ := holds_createNew hensure.plain hnew
      have hne := locationOf_ne_partialPath hensure.plain hparent hname hdirectory n
      rw [← hmade.locationOf, ← hmade.locationOf (partialPath directory destination n)] at hne
      rcases hconclude : (conclude r (partialPath directory destination n) destination).perform
        { u with disk := e } with ⟨out, w'⟩
      obtain ⟨hedit, hgone, hout⟩ := conclude_spec (r := r) hholds hne hconclude
      simp only [hmade.locationOf, hensure.locationOf] at hedit hgone hout hvacant hmade hne
      have hall : Edited (fun l => l = w.disk.locationOf destination ∨
          l = w.disk.locationOf (partialPath directory destination n)) u.disk w'.disk :=
        (hmade.mono fun l hl => .inr hl).trans hedit
      -- the private file is gone again, so that only the destination changes
      have hkept : Edited (· = w.disk.locationOf destination) u.disk w'.disk :=
        hall.forget fun l hl => hl.imp_right fun hl => by rw [hl, hgone, hvacant]
      refine ⟨(hensure.mono fun _ hl => hl.elim).trans hkept, hout.imp_right ?_⟩
      rintro ⟨herror, hfile⟩
      refine ⟨herror, fun b k hb => ?_⟩
      have hbefore := (hmade.file_iff hne b k).1 (hfile b k hb)
      exact (hensure.file_iff id b k).1 hbefore

end Stream

end ReleaseFetch
