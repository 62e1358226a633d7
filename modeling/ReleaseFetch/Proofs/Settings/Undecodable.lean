/-
**Files that are no text.**

A configuration file is decoded chunk by chunk, and a sequence that the end of a chunk cuts off is
carried over to the next one.  So a fault in the bytes of a single chunk is met at once or right
after the chunk, in both cases before the first pages are handed out, and whatever the readable part
of the file says, its configuration is neither loaded nor refused.

Main results:

* `ReleaseFetch.Text.Utf8.decode_drop_fault` — the bytes from a fault on are no text either;
* `ReleaseFetch.Text.Paged.read_undecodable` — no page is found;
* `ReleaseFetch.Settings.load_undecodable` — the fault gets out of loading a configuration.
-/

import ReleaseFetch.Proofs.Settings.Loading

set_option autoImplicit false

namespace ReleaseFetch

/-! ### Faults -/

namespace Text.Utf8

/-- The pieces behind some bytes that belong to another piece. -/
theorem piecesFrom_eq_drop (skip : Nat) (bytes : List UInt8) :
    piecesFrom skip bytes = pieces (bytes.drop skip) := by
  induction bytes generalizing skip with
  | nil => cases skip <;> rfl
  | cons b rest ih =>
      cases skip with
      | zero => rfl
      | succ skip => exact ih skip

theorem piecesFrom_length_le (skip : Nat) (bytes : List UInt8) :
    (piecesFrom skip bytes).length ≤ bytes.length := by
  induction bytes generalizing skip with
  | nil => simp [piecesFrom]
  | cons b rest ih =>
      cases skip with
      | zero => simpa [piecesFrom] using ih _
      | succ skip => exact (ih skip).trans (Nat.le_succ _)

theorem continuation_length (value got missing : Nat) (bytes : List UInt8) :
    got ≤ (continuation value got missing bytes).length := by
  induction missing generalizing value got bytes with
  | zero => exact Nat.le_refl _
  | succ missing ih =>
      cases bytes with
      | nil => exact Nat.le_refl _
      | cons b rest =>
          unfold continuation
          split
          · exact (Nat.le_succ got).trans (ih _ _ _)
          · exact Nat.le_refl _

theorem sequence_length (value missing : Nat) (low high : UInt8) (bytes : List UInt8) :
    0 < (sequence value missing low high bytes).length := by
  cases bytes with
  | nil => exact Nat.one_pos
  | cons b rest =>
      simp only [sequence]
      split
      · exact Nat.lt_of_lt_of_le Nat.two_pos (continuation_length _ _ _ _)
      · exact Nat.one_pos

/-- No piece is empty. -/
theorem pieceAt_length (b : UInt8) (rest : List UInt8) : 0 < (pieceAt b rest).length := by
  unfold pieceAt
  split
  · exact Nat.one_pos
  · split
    · exact Nat.one_pos
    · split
      · exact sequence_length _ _ _ _ _
      · split
        · exact sequence_length _ _ _ _ _
        · split
          · exact sequence_length _ _ _ _ _
          · exact Nat.one_pos

theorem pieces_cons (b : UInt8) (rest : List UInt8) :
    pieces (b :: rest) = pieceAt b rest :: pieces ((b :: rest).drop (pieceAt b rest).length) := by
  obtain ⟨n, hn⟩ := Nat.exists_eq_succ_of_ne_zero (pieceAt_length b rest).ne'
  rw [hn, List.drop_succ_cons, ← piecesFrom_eq_drop]
  simp [pieces, piecesFrom, hn]

theorem decodeFrom_length_le {position : Nat} {bytes : List UInt8} {ps : List Piece} {cs : List Char}
    (h : decodeFrom position bytes ps = .ok cs) : cs.length ≤ ps.length := by
  induction ps generalizing position cs with
  | nil =>
      cases h
      exact Nat.le_refl _
  | cons p rest ih =>
      cases p with
      | fault reason n => cases h
      | char c n =>
          unfold decodeFrom at h
          cases hrest : decodeFrom (position + n) bytes rest with
          | error f => rw [hrest] at h; cases h
          | ok ds =>
              rw [hrest] at h
              cases h
              exact Nat.succ_le_succ (ih hrest)

/-- A text has no more characters than bytes. -/
theorem decode_length_le {bytes : List UInt8} {cs : List Char} (h : decode bytes = .ok cs) :
    cs.length ≤ bytes.length :=
  (decodeFrom_length_le h).trans (piecesFrom_length_le 0 bytes)

/-- **The bytes from a fault on** are no text, and there are some. -/
theorem decode_drop_fault {position : Nat} {bytes : List UInt8} {f : Fault}
    (h : decodeFrom position bytes (pieces (bytes.drop position)) = .error f) :
    f.position < bytes.length ∧ ∃ g, decode (bytes.drop f.position) = .error g := by
  -- induction on the bytes that are left
  generalize hleft : (bytes.drop position).length = left
  induction left using Nat.strong_induction_on generalizing position with
  | _ left ih =>
      cases hdrop : bytes.drop position with
      | nil =>
          rw [hdrop] at h
          cases h
      | cons b rest =>
          have hlt : position < bytes.length := by
            by_contra hge
            rw [List.drop_eq_nil_of_le (Nat.not_lt.1 hge)] at hdrop
            cases hdrop
          rw [hdrop, pieces_cons] at h
          cases hpiece : pieceAt b rest with
          | fault reason n =>
              rw [hpiece] at h
              cases h
              refine ⟨hlt, ⟨reason, 0, n, b⟩, ?_⟩
              rw [decode, hdrop, pieces_cons, hpiece]
              rfl
          | char c n =>
              have hn : 0 < n := by simpa [hpiece, Piece.length] using pieceAt_length b rest
              rw [hpiece] at h
              simp only [Piece.length] at h
              rw [← hdrop, List.drop_drop] at h
              unfold decodeFrom at h
              cases hrest : decodeFrom (position + n) bytes (pieces (bytes.drop (position + n))) with
              | ok ds => rw [hrest] at h; cases h
              | error g =>
                  rw [hrest] at h
                  cases h
                  refine ih _ ?_ hrest rfl
                  rw [← hleft, List.length_drop, List.length_drop]
                  omega

end Text.Utf8

/-! ### Chunks and pages -/

namespace Text.Paged

open Utf8

theorem unifyLines_length_le (cs : List Char) : (unifyLines cs).length ≤ cs.length := by
  fun_induction unifyLines cs with
  | case1 => exact Nat.le_refl _
  | case2 rest ih => simp only [List.length_cons]; omega
  | case3 rest _ ih => simp only [List.length_cons]; omega
  | case4 c rest _ _ ih => simp only [List.length_cons]; omega

/-- A chunk that is no text is refused, or what is no text in it is carried over. -/
theorem decodeChunk_undecodable {bytes : List UInt8} {f : Fault} (h : decode bytes = .error f) :
    (∃ g, decodeChunk false bytes = .error g) ∨
      ∃ cs carried, decodeChunk false bytes = .ok (cs, carried) ∧ cs.length < bytes.length ∧
        ∃ g, decode carried = .error g := by
  have hfrom : decodeFrom 0 bytes (Utf8.pieces (bytes.drop 0)) = .error f := h
  obtain ⟨hlt, hcarried⟩ := decode_drop_fault hfrom
  unfold decodeChunk
  rw [h]
  simp only
  split
  · cases hfront : decode (bytes.take f.position) with
    | error g => exact .inl ⟨g, rfl⟩
    | ok cs =>
        refine .inr ⟨cs, _, rfl, ?_, hcarried⟩
        have hle := decode_length_le hfront
        rw [List.length_take] at hle
        omega
  · exact .inl ⟨f, rfl⟩

/-- At the end of a file, what was carried over is decoded on its own. -/
theorem fetch_ended {f : Feed} (hleft : f.left = []) {g : Fault} (hcarried : decode f.carried = .error g)
    (wanted : Nat) : fetch f wanted = .error g := by
  have hchunk : decodeChunk true f.carried = .error g := by
    simp [decodeChunk, hcarried]
  simp [fetch, hleft, hchunk, Bind.bind, Except.bind]

/-- Bytes of one chunk that are no text are refused with it, or end it with what is no text. -/
theorem fetch_start {bytes : List UInt8} {f : Fault} (h : decode bytes = .error f)
    (hsize : bytes.length ≤ chunkSize) (wanted : Nat) :
    (∃ g, fetch (.start bytes) wanted = .error g) ∨
      ∃ next, fetch (.start bytes) wanted = .ok next ∧ next.left = [] ∧ next.ended = false ∧
        next.ready.length < chunkSize ∧ ∃ g, decode next.carried = .error g := by
  have hne : bytes.isEmpty = false := by
    cases bytes with
    | nil => cases h
    | cons b rest => rfl
  have hinput : (Feed.start bytes).left.take ((Feed.start bytes).sizeFor wanted) = bytes := by
    refine List.take_of_length_le (hsize.trans ?_)
    simp [Feed.sizeFor, Feed.start]
  unfold fetch
  simp only [hinput, hne]
  simp only [Feed.start, List.nil_append, Bool.not_false, Bool.true_and, Bool.false_and, Bool.and_true,
    Bool.or_false, Bool.false_eq_true, if_false]
  rcases decodeChunk_undecodable h with ⟨g, hg⟩ | ⟨cs, carried, hchunk, hshort, hcarried⟩
  · rw [hg]
    exact .inl ⟨g, rfl⟩
  · rw [hchunk]
    refine .inr ⟨_, rfl, List.drop_length, rfl, ?_, hcarried⟩
    refine Nat.lt_of_le_of_lt ((unifyLines_length_le _).trans ?_) (hshort.trans_le hsize)
    split
    · exact (List.dropLast_sublist cs).length_le
    · exact Nat.le_refl _

/-- Where what is no text was carried to the end of a file, no page can be made of what is ready
unless that is enough. -/
theorem page_ended {fuel : Nat} {f : Feed} (hleft : f.left = []) (hended : f.ended = false) {g : Fault}
    (hcarried : decode f.carried = .error g) (hshort : f.ready.length < pageSize) :
    page (fuel + 1) f = .error g := by
  have hmissing : ¬ (pageSize - f.ready.length = 0) := by omega
  rw [page]
  simp only [hmissing, hended, decide_false, Bool.or_self, Bool.false_eq_true, if_false]
  rw [fetch_ended hleft hcarried]
  rfl

theorem page_start (fuel : Nat) (bytes : List UInt8) :
    page (fuel + 1) (.start bytes) = fetch (.start bytes) pageSize >>= page fuel := rfl

theorem page_full {fuel : Nat} {f : Feed} (hready : pageSize ≤ f.ready.length) :
    page (fuel + 1) f = .ok (f.ready.take pageSize, { f with ready := f.ready.drop pageSize }) := by
  have hmissing : pageSize - f.ready.length = 0 := by omega
  rw [page]
  simp only [hmissing, decide_true, Bool.true_or, if_true]
  rfl

theorem pagesFrom_error {fuel : Nat} {f : Feed} {g : Fault}
    (hpage : page (f.left.length + 2) f = .error g) : pagesFrom (fuel + 1) f = ⟨[], some g⟩ := by
  rw [pagesFrom, hpage]

/-- **No page is found** of a file of one chunk that is no text. -/
theorem read_undecodable {bytes : List UInt8} {f : Fault} (h : decode bytes = .error f)
    (hsize : bytes.length ≤ chunkSize) : ∃ g, read bytes = ⟨[], some g⟩ := by
  have hchunks : chunkSize = 2 * pageSize := rfl
  obtain ⟨n, hn⟩ : ∃ n, bytes.length = n + 1 := by
    cases bytes with
    | nil => cases h
    | cons b rest => exact ⟨rest.length, rfl⟩
  unfold read
  rcases fetch_start h hsize pageSize with
    ⟨g, hfetch⟩ | ⟨next, hfetch, hleft, hended, hshort, g, hcarried⟩
  · refine ⟨g, ?_⟩
    rw [pagesFrom_error (g := g) (by rw [page_start, hfetch]; rfl)]
    rfl
  have hpage : page ((Feed.start bytes).left.length + 2) (.start bytes) =
      page (bytes.length + 1) next := by
    rw [page_start, hfetch]
    rfl
  refine ⟨g, ?_⟩
  rcases Nat.lt_or_ge next.ready.length pageSize with hlt | hge
  · rw [pagesFrom_error (hpage.trans (page_ended hleft hended hcarried hlt))]
    rfl
  · -- the first page is full, and given back because the second one is missing
    have hrest : (next.ready.drop pageSize).length < pageSize := by
      rw [List.length_drop]
      omega
    have hfirst : (next.ready.take pageSize).isEmpty = false := by
      have hsize : 0 < pageSize := by decide
      rw [List.isEmpty_eq_false_iff, ← List.length_pos_iff, List.length_take]
      omega
    rw [pagesFrom, hpage, page_full hge]
    simp only [hfirst, Bool.false_eq_true, if_false]
    rw [hn, pagesFrom_error (page_ended (f := { next with ready := next.ready.drop pageSize })
      hleft hended hcarried hrest)]
    rfl

end Text.Paged

/-! ### Loading -/

namespace ConfigFile

/-- A file of one chunk that is no text is in trouble. -/
theorem trouble_of_undecodable {bytes : List UInt8} {fault : Text.Utf8.Fault}
    (h : Text.Utf8.decode bytes = .error fault) (hsize : bytes.length ≤ Text.Paged.chunkSize) :
    ∃ g, Trouble bytes (.encoding g) := by
  obtain ⟨g, hread⟩ := Text.Paged.read_undecodable h hsize
  have hsource : source bytes = ([], some (.encoding g)) := by
    rw [source, hread]
    rfl
  refine ⟨g, .encoding ?_⟩
  rw [hsource]
  rfl

end ConfigFile

namespace Settings

/-- **A file that is no text** gets out of loading a configuration: where the bytes of the
configuration file fit into one chunk and cannot be decoded, a run fails with a fault of the bytes.
-/
theorem load_undecodable (s : Site) (h : Host) {file : Option Path} {w : World} {p : Path}
    {bytes : List UInt8} {fault : Text.Utf8.Fault} (hpath : pathOn w.disk file = .ok p)
    (hread : w.disk.read p = .ok bytes) (hsize : bytes.length ≤ Text.Paged.chunkSize)
    (hbytes : Text.Utf8.decode bytes = .error fault) :
    ∃ g, ((load s h file).perform w).1 = .error (.encoding g) := by
  obtain ⟨g, htrouble⟩ := ConfigFile.trouble_of_undecodable hbytes hsize
  have hentries := ((ConfigFile.settingsOfBytes_leaks p.text bytes _).2 htrouble).1
  refine ⟨g, ?_⟩
  rw [load_decides, fileOn_there hpath (Disk.exists?_of_read hread)]
  change entriesOn w.disk (some p) >>= _ = _
  rw [entriesOn_read hread, hentries]
  rfl

end Settings

end ReleaseFetch
