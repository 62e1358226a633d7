/-
**A text is a key of a mapping once.**

The keys of a mapping are compared when its entries are put in: a key that is there already gets the
new value.  Only a value that is no number, written by digits, is the same key as no other one, and
the reader knows such a value by its node.  A node keeps its value while merges change tags, and no
merge makes a node a number; so a text is never taken for such a value, and every text is a key at
most once.

Main definitions:

* `ReleaseFetch.Yaml.Ensures` — what a step leaves behind where it succeeds;
* `ReleaseFetch.Yaml.Graph.Tame` — a graph has no numbers that another one has not;
* `ReleaseFetch.Yaml.TextsOnce` — every text is a key at most once.

Main results:

* `ReleaseFetch.Yaml.Merge.merging_tame` — merges make no numbers, by induction on their fuel;
* `ReleaseFetch.Yaml.Build.entryParts_once` — the entries of a mapping, by induction on them;
* `ReleaseFetch.Yaml.Document.textsOnce` — the mappings of a document.
-/

import ReleaseFetch.Yaml.Document

set_option autoImplicit false

namespace ReleaseFetch.Yaml

/-! ### Steps -/

section Ensures

variable {σ α β : Type}

/-- From every state that meets the first condition, the step fails or leaves a result and a state
that meet the second one. -/
def Ensures (P : σ → Prop) (x : StateT σ (Except Fault) α) (Q : α → σ → Prop) : Prop :=
  ∀ b a b', P b → x.run b = .ok (a, b') → Q a b'

namespace Ensures

variable {P P' : σ → Prop} {Q Q' : α → σ → Prop} {R : β → σ → Prop}
  {x : StateT σ (Except Fault) α} {k : α → StateT σ (Except Fault) β}

theorem mono (hx : Ensures P x Q) (hP : ∀ b, P' b → P b) (hQ : ∀ a b, Q a b → Q' a b) :
    Ensures P' x Q' := fun b a b' hb hrun => hQ a b' (hx b a b' (hP b hb) hrun)

/-- A step starts from a state that meets its condition. -/
theorem started {b : σ} (hx : Ensures P x Q) (hb : P b) : Ensures (· = b) x Q :=
  hx.mono (fun _ heq => heq ▸ hb) fun _ _ h => h

theorem pure {a : α} (h : ∀ b, P b → Q a b) : Ensures P (Pure.pure a) Q := by
  intro b a' b' hb hrun
  cases hrun
  exact h b hb

theorem throw (f : Fault) : Ensures P (MonadExcept.throw f : StateT σ (Except Fault) α) Q :=
  fun _ _ _ _ hrun => nomatch hrun

theorem bind (hx : Ensures P x Q) (hk : ∀ a, Ensures (Q a) (k a) R) : Ensures P (x >>= k) R := by
  intro b c b' hb hrun
  rw [StateT.run_bind] at hrun
  cases hx' : x.run b with
  | error f => rw [hx'] at hrun; cases hrun
  | ok p =>
      rw [hx'] at hrun
      exact hk p.1 p.2 c b' (hx b p.1 p.2 hb hx') hrun

/-- What is known of the state only by chance can be used. -/
theorem known {p : Prop} (h : p → Ensures P x Q) : Ensures (fun b => P b ∧ p) x Q :=
  fun b a b' hb hrun => h hb.2 b a b' hb.1 hrun

/-- What follows a look at the state starts from the state that was seen. -/
theorem get_bind {k : σ → StateT σ (Except Fault) β} (hk : ∀ b, P b → Ensures (· = b) (k b) R) :
    Ensures P (get >>= k) R :=
  bind (Q := fun b b' => P b ∧ b' = b) (fun b a b' hb hrun => by cases hrun; exact ⟨hb, rfl⟩)
    fun b => fun b' c b'' hb hrun => hk b hb.1 b' c b'' hb.2 hrun

theorem set {b : σ} {Q : PUnit → σ → Prop} (h : Q ⟨⟩ b) :
    Ensures P (MonadStateOf.set b : StateT σ (Except Fault) PUnit) Q := by
  intro _ _ _ _ hrun
  cases hrun
  exact h

theorem modify {f : σ → σ} {Q : PUnit → σ → Prop} (h : ∀ b, P b → Q ⟨⟩ (f b)) :
    Ensures P (modify f : StateT σ (Except Fault) PUnit) Q := by
  intro b _ _ hb hrun
  cases hrun
  exact h b hb

end Ensures

end Ensures

/-! ### Merges -/

namespace Graph

/-- Every number of the second graph is one of the first. -/
def Tame (g g' : Graph) : Prop :=
  ∀ n gs, g'.node n = .scalar .float gs → g.node n = .scalar .float gs

variable {g g' g'' : Graph}

theorem Tame.refl (g : Graph) : Tame g g := fun _ _ h => h

theorem Tame.trans (h : Tame g g') (h' : Tame g' g'') : Tame g g'' :=
  fun n gs hn => h n gs (h' n gs hn)

theorem tame_put (g : Graph) (n : Nat) {x : Node} (hx : ∀ gs, x ≠ .scalar .float gs) :
    Tame g (g.put n x) := by
  intro m gs hm
  by_cases hn : n < g.size
  · rw [node_put g n m x hn] at hm
    split at hm
    · exact absurd hm (hx gs)
    · exact hm
  · rwa [put, Array.setIfInBounds_eq_of_size_le (Nat.le_of_not_lt hn)] at hm

theorem tame_putEntries (g : Graph) (n : Nat) (entries : List (Nat × Nat)) :
    Tame g (g.putEntries n entries) := by
  unfold putEntries
  split
  · exact tame_put g n nofun
  · exact Tame.refl g

end Graph

namespace Merge

open Yaml.Graph

variable {g : Graph}

theorem asText_tame (g : Graph) (n : Nat) : Tame g (asText g n) := by
  unfold asText
  split
  · refine tame_put g n fun gs hgs => ?_
    cases hnode : g.node n <;> rw [hnode] at hgs <;> cases hgs
  · exact Tame.refl g

theorem foldl_asText_tame (entries : List (Nat × Nat)) (g : Graph) :
    Tame g (entries.foldl (fun acc e => asText acc e.1) g) := by
  induction entries generalizing g with
  | nil => exact Tame.refl g
  | cons e rest ih => exact (asText_tame g e.1).trans (ih (asText g e.1))

theorem close_tame (n : Nat) (gathered : List (Nat × Nat)) :
    Ensures (Tame g) (close n gathered) fun _ => Tame g :=
  .modify fun g' hg' => hg'.trans ((foldl_asText_tame _ g').trans (tame_putEntries _ n _))

/-- **Merges make no numbers.** -/
theorem merging_tame (fuel : Nat) :
    (∀ n gathered, Ensures (Tame g) (carryOut fuel n gathered) fun _ => Tame g) ∧
      (∀ source, Ensures (Tame g) (entriesOf fuel source) fun _ => Tame g) ∧
      (∀ n, Ensures (Tame g) (entriesOfMapping fuel n) fun _ => Tame g) ∧
      ∀ items, Ensures (Tame g) (entriesOfAll fuel items) fun _ => Tame g := by
  -- all four call each other with less fuel
  induction fuel with
  | zero => exact ⟨fun _ _ => .throw _, fun _ => .throw _, fun _ => .throw _, fun _ => .throw _⟩
  | succ fuel ih =>
      obtain ⟨hcarry, hsource, hmapping, hall⟩ := ih
      refine ⟨fun n gathered => ?_, fun source => ?_, fun n => ?_, fun items => ?_⟩
      · rw [carryOut]
        refine .get_bind fun g' hg' => ?_
        cases takeMark g' (g'.entriesAt n) with
        | none => exact (close_tame n gathered).started hg'
        | some found =>
            have htame := hg'.trans (tame_putEntries g' n found.2)
            refine .bind (.set (Q := fun _ => Tame g) htame) fun _ => ?_
            exact .bind (hsource found.1) fun more => hcarry n (gathered ++ more)
      · rw [entriesOf]
        refine .get_bind fun g' hg' => ?_
        cases g'.node source with
        | mapping => exact (hmapping source).started hg'
        | sequence _ items => exact (hall items).started hg'
        | scalar => exact .throw _
      · rw [entriesOfMapping]
        refine .bind (hcarry n []) fun _ => .get_bind fun g' hg' => .pure ?_
        rintro _ rfl
        exact hg'
      · cases items with
        | nil =>
            rw [entriesOfAll]
            exact .pure fun _ h => h
        | cons n rest =>
            rw [entriesOfAll]
            refine .get_bind fun g' hg' => ?_
            cases g'.node n with
            | mapping =>
                refine .bind ((hmapping n).started hg') fun first => ?_
                exact .bind (hall rest) fun _ => .pure fun _ h => h
            | sequence => exact .throw _
            | scalar => exact .throw _

theorem merge_tame {g g' : Graph} {n : Nat} (h : g.merge n = .ok g') : Tame g g' := by
  unfold Graph.merge at h
  cases hrun : (carryOut (Nat.pow (g.weight + 4) 2) n []).run g with
  | error f => rw [hrun] at h; cases h
  | ok p =>
      rw [hrun] at h
      cases h
      exact (merging_tame _).1 n [] g p.1 p.2 (Tame.refl g) hrun

end Merge

/-! ### Keys -/

/-- Every text is among the keys at most once. -/
def TextsOnce (keys : List Value) : Prop :=
  keys.Pairwise fun k l => ∀ s, k = .text s → l ≠ .text s

/-- Keys stay apart from each other when they are put together with values. -/
theorem TextsOnce.zip {keys : List Value} (h : TextsOnce keys) (vs : List Value) :
    TextsOnce ((keys.zip vs).map Prod.fst) := by
  refine List.Pairwise.sublist ?_ h
  clear h
  induction keys generalizing vs with
  | nil => exact .slnil
  | cons k rest ih =>
      cases vs with
      | nil => exact List.nil_sublist _
      | cons v vs => exact (ih vs).cons_cons k

namespace Key

/-- The key is not taken for a value that is no number, if it is a text. -/
def Plain (k : Key) : Prop := ∀ s, k.value = .text s → k.isNan = false

/-- Entries under plain keys, of which every text is there at most once. -/
structure Once (found : List (Key × Part)) : Prop where
  plain : ∀ k ∈ found.map Prod.fst, k.Plain
  texts : TextsOnce (found.map (·.1.value))

variable {k l : Key} {found : List (Key × Part)}

theorem once_nil : Once [] := ⟨List.forall_mem_nil _, List.Pairwise.nil⟩

theorem isSame_of_text {s : String} (hk : k.Plain) (hl : l.Plain) (htext : k.value = .text s)
    (htext' : l.value = .text s) : k.isSame l = true := by
  simp [isSame, htext, htext', hk s htext, hl s htext', Value.isSameKey, Value.wholeNumber?]

theorem mem_insert {p : Part} (h : l ∈ (k.insert p found).map Prod.fst) :
    l ∈ found.map Prod.fst ∨ l = k := by
  induction found with
  | nil => exact .inr (List.mem_singleton.1 h)
  | cons x rest ih =>
      rw [insert] at h
      split at h
      · exact .inl h
      · rcases List.mem_cons.1 h with rfl | hrest
        · exact .inl List.mem_cons_self
        · exact (ih hrest).imp_left (List.mem_cons_of_mem x.1)

/-- An entry is put in once. -/
theorem Once.insert (hk : k.Plain) (p : Part) (h : Once found) : Once (k.insert p found) := by
  refine ⟨fun l hl => (mem_insert hl).elim (h.plain l) fun heq => heq ▸ hk, ?_⟩
  obtain ⟨hplain, htexts⟩ := h
  induction found with
  | nil => exact List.pairwise_singleton _ _
  | cons x rest ih =>
      obtain ⟨hx, hrest⟩ := List.forall_mem_cons.1 hplain
      obtain ⟨hfirst, hothers⟩ := List.pairwise_cons.1 htexts
      rw [Key.insert]
      split
      · exact List.pairwise_cons.2 ⟨hfirst, hothers⟩
      · next hother =>
        refine List.pairwise_cons.2 ⟨fun v hv s hxs hvs => ?_, ih hrest hothers⟩
        obtain ⟨e, he, rfl⟩ := List.mem_map.1 hv
        rcases mem_insert (List.mem_map_of_mem he) with hmem | heq
        · obtain ⟨y, hy, hkey⟩ := List.mem_map.1 hmem
          exact hfirst _ (List.mem_map_of_mem hy) s hxs (hkey ▸ hvs)
        · exact hother (isSame_of_text hx hk hxs (heq ▸ hvs))

end Key

/-! ### Building -/

namespace Build

open Yaml.Graph

/-- Numbers have the values of numbers, and in mappings every text is a key at most once. -/
structure Sound (b : Build) : Prop where
  numbers : ∀ (n : Nat) (v : Value) (gs : List Text.Glyph),
    (b.parts[n]?).join = some (.leaf v) → b.graph.node n = .scalar .float gs → ∃ x, v = .real x
  mappings : ∀ (n : Nat) (entries : List (Value × Part)),
    (b.contents[n]?).join = some (.mapping entries) → TextsOnce (entries.map (·.1))

variable {b : Build}

/-- A value in an array is one that was there, or the one that was put there. -/
theorem join_setIfInBounds {α : Type} {xs : Array (Option α)} {n m : Nat} {x y : α}
    (h : ((xs.setIfInBounds n (some x))[m]?).join = some y) :
    (xs[m]?).join = some y ∨ m = n ∧ y = x := by
  rw [Array.getElem?_setIfInBounds] at h
  split at h
  · next heq =>
    split at h
    · exact .inr ⟨heq.symm, (Option.some.inj h).symm⟩
    · cases h
  · exact .inl h

theorem Sound.put_part (hb : b.Sound) {n : Nat} {p : Part} (next : List Nat)
    (hp : ∀ v gs, p = .leaf v → b.graph.node n = .scalar .float gs → ∃ x, v = .real x) :
    Sound { b with parts := b.parts.setIfInBounds n (some p), next := next } := by
  refine ⟨fun m v gs hv hm => ?_, hb.mappings⟩
  rcases join_setIfInBounds hv with hbefore | ⟨rfl, hleaf⟩
  · exact hb.numbers m v gs hbefore hm
  · exact hp v gs hleaf.symm hm

theorem Sound.put_content (hb : b.Sound) {n : Nat} {c : Content}
    (hc : ∀ entries, c = .mapping entries → TextsOnce (entries.map (·.1))) :
    Sound { b with contents := b.contents.setIfInBounds n (some c) } := by
  refine ⟨hb.numbers, fun m entries hm => ?_⟩
  rcases join_setIfInBounds hm with hbefore | ⟨-, hnew⟩
  · exact hb.mappings m entries hbefore
  · exact hc entries hnew.symm

theorem Sound.tame (hb : b.Sound) {g : Graph} (hg : Tame b.graph g) : Sound { b with graph := g } :=
  ⟨fun n v gs hv hn => hb.numbers n v gs hv (hg n gs hn), hb.mappings⟩

/-- What follows a decision starts from what was decided. -/
theorem give_bind {α β : Type} {P : Build → Prop} {R : β → Build → Prop} {r : Except Fault α}
    {k : α → Building β} (hk : ∀ a, r = .ok a → Ensures P (k a) R) : Ensures P (give r >>= k) R := by
  cases r with
  | error f => exact .bind (.throw (Q := fun _ _ => False) f) fun _ _ _ _ hfalse => hfalse.elim
  | ok a => exact hk a rfl

/-- What is read as a number is one. -/
theorem realOf_real {gs : List Text.Glyph} {v : Value} (h : realOf gs = .ok v) : ∃ x, v = .real x := by
  unfold realOf at h
  cases hsigned : signed? (Text.lowerGlyphs (withoutGaps gs)) with
  | error f => rw [hsigned] at h; cases h
  | ok p =>
      cases hbody : unsignedReal p.2 with
      | error f => simp only [hsigned, bind, Except.bind, hbody] at h; cases h
      | ok x =>
          simp only [hsigned, bind, Except.bind, hbody] at h
          exact ⟨_, (Except.ok.inj h).symm⟩

theorem leafOf_real {g : Graph} {n : Nat} {gs : List Text.Glyph} {v : Value}
    (hnode : g.node n = .scalar .float gs) (h : leafOf g n = .ok v) : ∃ x, v = .real x := by
  have htext : scalarText g (g.size + 1) n = .ok gs := by rw [scalarText, hnode]
  unfold leafOf at h
  rw [htext] at h
  simp only [bind, Except.bind, hnode, tagAt, Node.tag] at h
  exact realOf_real h

/-- A part that is found or made is a number where its node is one. -/
theorem part_sound (n : Nat) : Ensures Sound (part n) fun p b =>
    b.Sound ∧ ∀ v gs, p = .leaf v → b.graph.node n = .scalar .float gs → ∃ x, v = .real x := by
  unfold part
  refine .get_bind fun b hb => ?_
  split
  · next p hp =>
    refine .pure ?_
    rintro _ rfl
    refine ⟨hb, fun v gs hv hn => hb.numbers n v gs ?_ hn⟩
    rw [hp, hv]
  · simp only
    split
    · refine give_bind fun v hv => ?_
      have hreal (w : Value) (gs : List Text.Glyph) (hw : Part.leaf v = .leaf w)
          (hn : b.graph.node n = .scalar .float gs) : ∃ x, w = .real x := by
        obtain rfl := Part.leaf.inj hw
        exact leafOf_real hn hv
      exact .bind (.set (Q := fun _ b' => b'.Sound ∧ b'.graph = b.graph)
        ⟨hb.put_part b.next hreal, rfl⟩) fun _ => .pure fun b' hb' =>
          ⟨hb'.1, fun w gs hw hn => hreal w gs hw (hb'.2 ▸ hn)⟩
    · split
      · have hnone (w : Value) (gs : List Text.Glyph) (hw : Part.collection n = .leaf w)
            (_ : b.graph.node n = .scalar .float gs) : ∃ x, w = .real x := nomatch hw
        exact .bind (.set (Q := fun _ => Sound) (hb.put_part (n :: b.next) hnone)) fun _ =>
          .pure fun b' hb' => ⟨hb', fun w gs hw _ => nomatch hw⟩
      · exact .throw _

theorem part_keeps (n : Nat) : Ensures Sound (part n) fun _ => Sound :=
  (part_sound n).mono (fun _ h => h) fun _ _ h => h.1

theorem allParts_keeps (ns : List Nat) : Ensures Sound (allParts ns) fun _ => Sound := by
  induction ns with
  | nil => exact .pure fun _ h => h
  | cons n rest ih => exact .bind (part_keeps n) fun _ => .bind ih fun _ => .pure fun _ h => h

theorem pairParts_keeps (ns : List Nat) : Ensures Sound (pairParts ns) fun _ => Sound := by
  induction ns with
  | nil => exact .pure fun _ h => h
  | cons n rest ih =>
      refine .get_bind fun b hb => ?_
      split
      · refine .bind ((part_keeps _).started hb) fun _ => ?_
        exact .bind (part_keeps _) fun _ => .bind ih fun _ => .pure fun _ h => h
      · exact .throw _

/-- A key is plain: a text is not the value of a number. -/
theorem keyOf_sound (n : Nat) : Ensures Sound (keyOf n) fun k b => b.Sound ∧ k.Plain := by
  unfold keyOf
  refine .bind (part_sound n) fun p => ?_
  cases p with
  | collection m => exact .throw _
  | leaf v =>
      refine .get_bind fun b hb => ?_
      split
      · next gs hnode =>
        obtain ⟨x, rfl⟩ := hb.2 v gs rfl hnode
        refine .pure ?_
        rintro _ rfl
        exact ⟨hb.1, fun _ => nofun⟩
      · refine .pure ?_
        rintro _ rfl
        exact ⟨hb.1, fun _ _ => rfl⟩

/-- **Every text is a key of a mapping once.** -/
theorem entryParts_once {found : List (Key × Part)} (hfound : Key.Once found)
    (entries : List (Nat × Nat)) :
    Ensures Sound (entryParts found entries) fun found' b => b.Sound ∧ Key.Once found' := by
  induction entries generalizing found with
  | nil => exact .pure fun _ h => ⟨h, hfound⟩
  | cons e rest ih =>
      obtain ⟨k, v⟩ := e
      refine .bind (keyOf_sound k) fun key => .known fun hkey => ?_
      exact .bind (part_keeps v) fun p => ih (hfound.insert hkey p)

theorem mappingParts_once (n : Nat) :
    Ensures Sound (mappingParts n) fun found b => b.Sound ∧ Key.Once found := by
  unfold mappingParts
  refine .get_bind fun b hb => ?_
  split
  · refine .get_bind fun b' hb' => give_bind fun g hg => ?_
    subst hb'
    refine .bind (.modify (Q := fun _ => Sound) ?_) fun _ =>
      entryParts_once Key.once_nil (g.entriesAt n)
    rintro _ rfl
    exact hb.tame (Merge.merge_tame hg)
  · exact .throw _

theorem itemsOf_keeps (n : Nat) : Ensures Sound (itemsOf n) fun _ => Sound := by
  unfold itemsOf
  refine .get_bind fun b hb => ?_
  split
  · refine .pure ?_
    rintro _ rfl
    exact hb
  · exact .throw _

theorem contentOf_sound (n : Nat) : Ensures Sound (contentOf n) fun c b =>
    b.Sound ∧ ∀ entries, c = .mapping entries → TextsOnce (entries.map (·.1)) := by
  unfold contentOf
  refine .get_bind fun b hb => ?_
  split
  · refine .bind ((itemsOf_keeps n).started hb) fun items => ?_
    exact .bind (allParts_keeps items) fun _ => .pure fun _ h => ⟨h, fun _ hc => nomatch hc⟩
  · refine .bind ((itemsOf_keeps n).started hb) fun items => ?_
    exact .bind (pairParts_keeps items) fun _ => .pure fun _ h => ⟨h, fun _ hc => nomatch hc⟩
  · refine .bind ((itemsOf_keeps n).started hb) fun items => ?_
    exact .bind (pairParts_keeps items) fun _ => .pure fun _ h => ⟨h, fun _ hc => nomatch hc⟩
  · refine .bind ((mappingParts_once n).started hb) fun found => ?_
    refine .pure fun b' hb' => ⟨hb'.1, fun entries hc => ?_⟩
    obtain rfl := Content.mapping.inj hc
    rw [List.map_map]
    exact hb'.2.texts
  · refine .bind ((mappingParts_once n).started hb) fun found => ?_
    exact .pure fun _ h => ⟨h.1, fun _ hc => nomatch hc⟩
  · exact .throw _

/-- All collections that wait are filled soundly. -/
theorem fillAll_sound (fuel : Nat) : Ensures Sound (fillAll fuel) fun _ => Sound := by
  induction fuel with
  | zero => exact .pure fun _ h => h
  | succ fuel ih =>
      rw [fillAll]
      refine .get_bind fun b hb => ?_
      split
      · next n level _ =>
        refine .bind (.set (Q := fun _ => Sound) ⟨hb.numbers, hb.mappings⟩) fun _ => ?_
        refine .bind (contentOf_sound n) fun c => .known fun hc => ?_
        exact .bind (.modify fun b' hb' => hb'.put_content hc) fun _ => ih
      · exact .pure fun _ hb' => hb' ▸ hb
      · exact .bind (.set (Q := fun _ => Sound) ⟨hb.numbers, hb.mappings⟩) fun _ => ih

end Build

/-! ### Documents -/

namespace Document

variable {d : Document}

/-- A building in which nothing is known yet is sound. -/
theorem sound_start (g : Graph) : Build.Sound
    ⟨g, Array.replicate g.size none, Array.replicate g.size none, [], []⟩ := by
  have hnone {α : Type} (n : Nat) : ((Array.replicate g.size (none : Option α))[n]?).join = none := by
    rw [Array.getElem?_replicate]
    split <;> rfl
  refine ⟨fun n v gs hv => ?_, fun n entries hentries => ?_⟩
  · rw [hnone] at hv
    cases hv
  · rw [hnone] at hentries
    cases hentries

theorem textsOnce_ofGraph {n : Nat} {g : Graph} (h : ofGraph n g = .ok d) {p : Part}
    {entries : List (Value × Part)} (hentries : d.entries? p = some entries) :
    TextsOnce (entries.map (·.1)) := by
  have hbuild : Ensures Build.Sound (do
      let root ← Build.part n
      Build.fillAll (2 * g.size + 2)
      return root) fun _ => Build.Sound :=
    .bind (Build.part_keeps n) fun _ => .bind (Build.fillAll_sound _) fun _ => .pure fun _ h => h
  unfold ofGraph at h
  simp only at h
  generalize hbuilt : StateT.run _ _ = built at h
  cases built with
  | error f => cases h
  | ok x =>
      obtain rfl := Except.ok.inj h
      unfold entries? content? at hentries
      split at hentries
      · cases hentries
      · next m =>
        split at hentries
        · next found hfound =>
          obtain rfl := Option.some.inj hentries
          exact (hbuild _ _ _ (sound_start g) hbuilt).mappings m found hfound
        · cases hentries

/-- **In every mapping that is read from a text, a text is a key at most once.** -/
theorem textsOnce {cs : List Char} {cut : Option Fault} (h : ofText cs cut = .ok (some d)) {p : Part}
    {entries : List (Value × Part)} (hentries : d.entries? p = some entries) :
    TextsOnce (entries.map (·.1)) := by
  unfold ofText at h
  cases hgraph : Graph.ofText cs cut with
  | error f => rw [hgraph] at h; cases h
  | ok found =>
      rw [hgraph] at h
      rcases found with _ | ⟨n, g⟩
      · cases h
      · cases hdocument : ofGraph n g with
        | error f => simp only [bind, Except.bind, hdocument] at h; cases h
        | ok e =>
            simp only [bind, Except.bind, hdocument] at h
            cases h
            exact textsOnce_ofGraph hdocument hentries

end Document

end ReleaseFetch.Yaml
