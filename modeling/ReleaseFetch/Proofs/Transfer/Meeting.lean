/-
**One download on two disks.**

A download looks at its destination only to write over it or to discard what stands there, and both
make two disks the same that differed there at most.  So it is performed twice in the same way: if
it succeeds, the disks are the same in the end, and if it fails, they are the same or as they were
related before.

Main definitions:

* `ReleaseFetch.Stream.Meets` — what a download needs of a relation between disks, so that they meet
  at its destination.

Main results:

* `ReleaseFetch.Stream.meets_agrees`, `ReleaseFetch.Stream.meets_near` — disks that look the same,
  and disks that differ in the destination at most;
* `ReleaseFetch.Stream.Meets.keep` — a response that is kept;
* `ReleaseFetch.Stream.Meets.follow` — a chain of requests.
-/

import ReleaseFetch.Proofs.Release.Locating
import ReleaseFetch.Proofs.Session.Parallel

set_option autoImplicit false

namespace ReleaseFetch

open Disk Session

/-- Two disks are related, or look the same. -/
def Disk.OrAgrees (R : Disk → Disk → Prop) (d e : Disk) : Prop := R d e ∨ d.Agrees e

namespace Stream

variable {R : Disk → Disk → Prop} {destination : Path}

/-- Disks that `R` relates become the same at a destination, and follow each other along the way to
its private file. -/
structure Meets (R : Disk → Disk → Prop) (destination : Path) : Prop where
  parent : Matches R (Files.ensureDirectory destination.parent) (Ends R Agrees)
  directory : ∀ {d e}, R d e → partialDirectory d destination = partialDirectory e destination
  follows : ∀ {d e directory}, R d e → partialDirectory d destination = .ok directory →
    ∀ n d' e', R d' e' → Follows R (partialPath directory destination n) d' e'
  replace : ∀ {p d e}, Follows R p d e →
    Same Agrees (d.replace p destination) (e.replace p destination)
  discard : ∀ {α} {k : Session α} {Q}, Matches Agrees k Q →
    (∀ f d e, d.Agrees e → Q (.error f) d e) →
      Matches R (Files.discard destination >>= fun _ => k) Q

/-- The directory of a private file is read off the working directory. -/
theorem partialDirectory_eq {d e : Disk} (hhere : e.here = d.here)
    (hdir : d.get? d.here = some .directory ↔ e.get? d.here = some .directory) :
    partialDirectory d destination = partialDirectory e destination := by
  have hpath : d.herePath = e.herePath := by rw [herePath, herePath, hhere]
  have hsame : (d.get? d.here == some .directory) = (e.get? e.here == some .directory) := by
    rw [Bool.eq_iff_iff, beq_iff_eq, beq_iff_eq, hhere]
    exact hdir
  unfold partialDirectory workingPath
  rw [hpath, hsame]

/-- Disks that look the same stay so. -/
theorem meets_agrees (destination : Path) : Meets Agrees destination where
  parent := (Files.ensureDirectory_agrees _).mono fun r _ _ h => by cases r <;> exact h
  directory h := partialDirectory_eq h.here.symm (by rw [h.view])
  follows _ _ _ _ _ h := h.follows _
  replace h := h.related.replace _ _
  discard hk hfail := .bind (Files.discard_agrees _) (fun _ => hk) hfail

/-- Disks that differ in one entry of a cache become the same there. -/
theorem meets_near {base : Disk} {cache : Path} {name : String} (hcache : cache.Readable)
    (hname : IsEntryName name) (hnul : '\x00' ∉ name.toList) (hfits : Fits (cache.child name)) :
    Meets (Near base cache name) (cache.child name) where
  parent := by
    rw [Path.parent_child cache hname]
    exact Files.ensureDirectory_there_matches fun _ _ h => ⟨h.left.there, h.right.there⟩
  directory := by
    intro d e h
    refine partialDirectory_eq h.here ?_
    by_cases hhere : d.here = name :: base.locationOf cache
    · rw [hhere]
      exact iff_of_false h.leftEntry h.rightEntry
    · rw [h.other hhere]
  follows := by
    intro d e directory h hdirectory n d' e' h'
    have hparent : (cache.child name).parent.Readable := by
      rw [Path.parent_child cache hname]
      exact hcache
    refine h'.follows ⟨?_, ?_⟩
    · intro m hm
      rw [partialPath_eq] at hm
      rcases List.mem_append.1 hm with hm | hm
      · exact (partialDirectory_ok h.left.plain hparent hdirectory).1 m hm
      · rw [List.mem_singleton.1 hm]
        exact isName_partialName _ n
    · have hbeside : base.locationOf (partialPath directory (cache.child name) n) =
          partialName name n :: base.locationOf cache := by
        rw [← h.left.locationOf, locationOf_partialPath h.left.plain hparent hdirectory,
          Path.parent_child cache hname, Path.name_child cache hname, h.left.locationOf]
      rw [hbeside]
      intro hsuffix
      have heq := hsuffix.eq_of_length (by simp)
      exact partialName_ne name n (List.cons.inj heq).1.symm
  replace h := Near.replace h hname hnul hfits
  discard hk _ := Files.discard_near hname hnul hfits hk

/-! ### The private file -/

/-- A private file is made on both disks under one name, or on neither. -/
theorem openPartial_matches {directory : Path}
    (h : ∀ n d e, R d e → Follows R (partialPath directory destination n) d e) (left : Nat) :
    Matches R (openPartial directory destination left) fun r d e =>
      R d e ∧ ∀ t, r = .ok t → ∃ n, t = partialPath directory destination n := by
  intro w e hR
  induction left with
  | zero => exact ⟨e, rfl, hR, by rintro t ⟨⟩⟩
  | succ left ih =>
      have hnew := (h (attemptLimit - (left + 1)) _ _ hR).createNew
      unfold openPartial
      simp only [perform_bind, perform_get, perform_give, World.onDisk_disk]
      rcases hnew with ⟨f, hd, he⟩ | ⟨hd, he⟩ | ⟨d', e', hd, he, hR'⟩
      · rw [hd, he]
        exact ⟨e, rfl, hR, by rintro t ⟨⟩⟩
      · rw [hd, he]
        exact ih
      · rw [hd, he]
        exact ⟨e', rfl, hR', fun t ht => ⟨_, (Except.ok.inj ht).symm⟩⟩

theorem receive_keeps {p : Path} (h : ∀ d e, R d e → Follows R p d e) (chunks : List Chunk) :
    Keeps R (receive p chunks) := by
  induction chunks with
  | nil => exact (Quiet.pure _).keeps
  | cons c rest ih =>
      cases c with
      | failure f => exact (Quiet.throw f).keeps
      | bytes b => exact .bind (.change fun d e hR => (h d e hR).append b) fun _ => ih

theorem judge_keeps (url : String) (r : Response) : Keeps R (judge url r) := by
  have hclose : Keeps R (close r) := (blind_close r).matches fun _ _ _ hR => hR
  unfold judge
  refine .bind (Quiet.log _ _ _).keeps fun _ => ?_
  split
  · refine .bind hclose fun _ => ?_
    split
    · exact (Quiet.fail _).keeps
    · exact .bind (Quiet.give _).keeps fun next =>
        .bind (Quiet.log _ _ _).keeps fun _ => (Quiet.pure _).keeps
  · split
    · exact .bind hclose fun _ => (Quiet.fail _).keeps
    · exact (Quiet.pure _).keeps

/-- What is left when disks have met, or the download has failed. -/
theorem ends_of_agrees {α : Type} {r : Except Failure α} {d e : Disk} (h : d.Agrees e) :
    Ends Agrees (OrAgrees R) r d e := by
  cases r with
  | ok _ => exact h
  | error _ => exact .inr h

/-- The end of a response: its private file is removed, and the disks stay as they are related. -/
theorem conclude_matches {temporary : Path} (hfollows : ∀ d e, R d e → Follows R temporary d e)
    {r : Response} (hsettle : Matches R (settle r temporary destination)
      (Ends Agrees (OrAgrees R))) :
    Matches R (conclude r temporary destination) (Ends Agrees (OrAgrees R)) := by
  have hdiscard : Keeps (OrAgrees R) (Files.discard temporary) :=
    .or ((Files.discard_keeps hfollows).mono fun _ _ _ hR => .inl hR)
      ((Files.discard_agrees temporary).mono fun _ _ _ hR => .inr hR)
  refine .handle hsettle fun outcome => ?_
  cases outcome with
  | ok u =>
      exact .bind (Q := fun _ => Agrees) ((blind_close r).matches fun _ _ _ hR => hR)
        (fun _ => .bind (Files.discard_agrees temporary)
          (fun _ => .pure u fun _ _ hR => hR) fun _ _ _ hR => .inr hR)
        fun _ _ _ hR => .inr hR
  | error f =>
      exact .bind (Q := fun _ => OrAgrees R) ((blind_close r).matches fun _ _ _ hR => hR)
        (fun _ => .bind hdiscard (fun _ => .throw f fun _ _ hR => hR) fun _ _ _ hR => hR)
        fun _ _ _ hR => hR

namespace Meets

/-! ### Keeping a response -/

theorem fill (h : Meets R destination) {temporary : Path}
    (hfollows : ∀ d e, R d e → Follows R temporary d e) (r : Response) :
    Matches R (fill r temporary destination) (Ends Agrees R) := by
  refine .bind (Q := fun _ => R) ((blind_startReading r chunkSize).matches fun _ _ _ hR => hR)
    (fun _ => ?_) fun _ _ _ hR => hR
  refine .bind (receive_keeps hfollows r.reply.chunks) (fun _ => ?_) fun _ _ _ hR => hR
  exact .change fun d e hR => h.replace (hfollows d e hR)

theorem abandon (h : Meets R destination) (f : Failure) :
    Matches R (abandon destination f) (Ends Agrees (OrAgrees R)) := by
  unfold Stream.abandon
  cases f.isInterrupt with
  | true => exact .throw f fun _ _ hR => .inl hR
  | false =>
      simp only [Bool.false_eq_true, if_false]
      refine .bind (Quiet.log _ _ _).keeps (fun _ => ?_) fun _ _ _ hR => .inl hR
      refine h.discard ?_ fun _ _ _ hR => .inr hR
      cases f.isNetwork with
      | true => exact .fail _ fun _ _ hR => .inr hR
      | false => exact .throw f fun _ _ hR => .inr hR

theorem settle (h : Meets R destination) {temporary : Path}
    (hfollows : ∀ d e, R d e → Follows R temporary d e) (r : Response) :
    Matches R (settle r temporary destination) (Ends Agrees (OrAgrees R)) := by
  refine .handle (h.fill hfollows r) fun result => ?_
  cases result with
  | ok u => exact .pure u fun _ _ hR => hR
  | error f => exact h.abandon f

/-- **A response that is kept makes the disks the same.** -/
theorem keep (h : Meets R destination) (r : Response) :
    Matches R (keep r destination) (Ends Agrees (OrAgrees R)) := by
  rw [keep_eq]
  refine .bind h.parent (fun _ => ?_) fun _ _ _ hR => .inr hR
  refine .bind (.look (fun d e hR => h.directory hR) fun result d e hresult hR =>
    (⟨hR, hresult⟩ : R d e ∧ partialDirectory d destination = result)) (fun directory => ?_)
    fun _ _ _ hR => .inl hR.1
  intro w e hR
  -- once its directory is known, so are the names that the private file may have
  have hfollows := h.follows hR.1 hR.2
  refine Matches.bind (openPartial_matches hfollows attemptLimit) (fun temporary => ?_)
    (fun _ _ _ hR => .inl hR.1) w e hR.1
  intro w e hR
  obtain ⟨n, rfl⟩ := hR.2 temporary rfl
  exact conclude_matches (hfollows n) (h.settle (hfollows n) r) w e hR.1

/-! ### The chain of requests -/

theorem ask (h : Meets R destination) (q : Request) (note : String) :
    Matches R (ask q destination note) (Ends R (OrAgrees R)) := by
  unfold Stream.ask
  refine .bind (Quiet.log _ _ _).keeps (fun _ => ?_) fun _ _ _ hR => .inl hR
  refine .handle (Q := fun _ => R) ((blind_send q).matches fun _ _ _ hR => hR) fun result => ?_
  cases result with
  | ok r => exact .pure r fun _ _ hR => hR
  | error f =>
      simp only
      split
      · exact h.discard (.fail _ fun _ _ hR => .inr hR) fun _ _ _ hR => .inr hR
      · exact .throw f fun _ _ hR => .inl hR

/-- A hop leaves the destination alone, or discards what stands there and fails. -/
theorem hop (h : Meets R destination) (c : Client) (host : Host) (o : Options) (url : String) :
    Matches R (hop c host o destination url) (Ends R (OrAgrees R)) := by
  rw [hop_eq]
  refine .bind (Quiet.give _).keeps (fun headers => ?_) fun _ _ _ hR => .inl hR
  refine .bind (Proxy.forRequest_quiet host url o).keeps (fun proxy => ?_) fun _ _ _ hR => .inl hR
  refine .bind (Quiet.give _).keeps (fun shown => ?_) fun _ _ _ hR => .inl hR
  exact h.ask _ _

/-- **A chain of requests makes the disks the same**, or fails. -/
theorem follow (h : Meets R destination) (c : Client) (host : Host) (o : Options) (first : String)
    (limit : Int) (left : Nat) (url : String) :
    Matches R (follow c host o destination first limit left url) (Ends Agrees (OrAgrees R)) := by
  induction left generalizing url with
  | zero => exact .fail _ fun _ _ hR => .inl hR
  | succ left ih =>
      unfold Stream.follow
      refine .bind (h.hop c host o url) (fun r => ?_) fun _ _ _ hR => hR
      refine .bind (Q := fun _ => R) (judge_keeps url r) (fun next => ?_) fun _ _ _ hR => .inl hR
      cases next with
      | go next => exact ih next
      | finish r' =>
          exact .bind (h.keep r') (fun _ => (Quiet.log _ _ _).matches fun _ _ _ hR => ends_of_agrees hR)
            fun _ _ _ hR => hR

end Meets

end Stream

end ReleaseFetch
