import MetricStore.Proofs.Tree

/-!
When snapshots become outdated.

Three epochs belong to a snapshot: the one it has seen, the one its range refers to and that of its
tape, which are never in another order (`Span.Fits`).  Only a compaction in place moves the last of
them, and it overtakes what every sharer of the tape has seen.  Main statement:

* `outdated_by_compaction_alone`: whatever the additions are made to, what one more of them does to
  the flags of all snapshots, and what the one that compacted its tape can rely on.

Design notes: a compaction is said of the slots (`Lineage.Compacts`) and not of the counters; that
they agree is `Lineage.compacts_iff`.
-/

namespace MetricStore

namespace Span

variable {capacity : Nat} {p : Pool} {s o : Span}

theorem Sits.isOutdated_iff (h : s.Sits capacity p) :
    s.isOutdated p = true ↔ s.seen < (p.tape s.tape).epoch := by
  have hseen := h.2.seen_le
  have hepoch := h.2.epoch_le
  rw [isOutdated, bne_iff_ne]
  omega

/-- Whoever compacted the tape and may still write in place finds room there. -/
def HasRoom (p : Pool) (s : Span) : Prop :=
  s.hasCompacted = true → s.written = (p.tape s.tape).written → (p.tape s.tape).isFull = false

theorem hasRoom_of_seen_eq (h : s.seen = s.epoch) : s.HasRoom p := by
  intro hc
  rw [hasCompacted, h, bne_self_eq_false] at hc
  cases hc

theorem Sits.hasRoom_after (ho : o.Sits capacity p) (h : o.HasRoom p) (s : Span)
    (latest : Sample) (m : Move) : o.HasRoom (s.move p latest m).1 := by
  intro hc hw
  obtain ⟨-, ht | ⟨x, ht⟩⟩ := tape_move s p latest m ho.1
  · rw [ht] at hw ⊢
    exact h hc hw
  · -- more has been written than was noted
    have hle := ho.2.written_le
    rw [ht, Tape.written_push] at hw
    omega

end Span

namespace Span.Made

/-! ### The flags of a span by the way it was made -/

variable {capacity : Nat} {p : Pool} {s : Span} {latest : Sample} {m : Move} {made : Pool × Span}

/-- Whoever stays on the tape has seen the epoch that the span before referred to. -/
theorem seen_eq (h : s.Made p latest m made) (hn : s.tape < p.tapes.size)
    (ht : made.2.tape = s.tape) : made.2.seen = s.epoch := by
  cases h with
  | replaced => rfl
  | inPlace => rfl
  | forked =>
    rw [tape_grown] at ht
    omega

theorem hasCompacted_iff (h : s.Made p latest m made) (hn : s.tape < p.tapes.size) :
    made.2.hasCompacted = true ↔ (made.1.tape s.tape).epoch ≠ (p.tape s.tape).epoch := by
  rw [hasCompacted, bne_iff_ne]
  cases h with
  | replaced => exact iff_of_false (fun h => h rfl) (fun h => h rfl)
  | inPlace may =>
    obtain ⟨hepoch, -, -⟩ := mayAppend_iff.mp may
    rw [Pool.tape_put_self p hn, hepoch]
    exact Iff.rfl
  | forked =>
    rw [Pool.tape_add_other p hn]
    exact iff_of_false (fun h => h rfl) (fun h => h rfl)

/-- A compaction is made in place, so the new span is on the compacted tape. -/
theorem tape_eq_of_epoch_ne (h : s.Made p latest m made) (hn : s.tape < p.tapes.size)
    (hc : (made.1.tape s.tape).epoch ≠ (p.tape s.tape).epoch) : made.2.tape = s.tape := by
  cases h with
  | replaced => rfl
  | inPlace => rfl
  | forked =>
    rw [Pool.tape_add_other p hn] at hc
    exact absurd rfl hc

/-- What is made of a span that is not recycled is not outdated, unless its making compacted. -/
theorem isOutdated_eq_false (h : s.Made p latest m made) (hl : s.isRecycled p = false)
    (hc : (made.1.tape s.tape).epoch = (p.tape s.tape).epoch) :
    made.2.isOutdated made.1 = false := by
  rw [isRecycled_eq_false_iff] at hl
  rw [isOutdated_eq_false_iff]
  cases h with
  | replaced => exact hl
  | inPlace => exact hl.trans hc.symm
  | forked =>
    -- a fork has seen no other epoch than its own
    rw [seen_grown, tape_grown, tape_add_size]

/-- A span is not recycled by its own making. -/
theorem isRecycled_eq_false (h : s.Made p latest m made) (hn : s.tape < p.tapes.size)
    (hc : made.2.hasCompacted = true) : made.2.isRecycled made.1 = false := by
  rw [isRecycled_eq_false_iff]
  cases h with
  | replaced =>
    rw [hasCompacted, bne_iff_ne] at hc
    exact absurd rfl hc
  | inPlace => rw [epoch_grown, tape_grown, Pool.tape_put_self p hn]
  | forked => rw [epoch_grown, tape_grown, tape_add_size]

/-- A compaction leaves the head in the middle of the slots, behind the sample it made room for. -/
theorem hasRoom (h : s.Made p latest m made) (hs : s.Sits capacity p)
    (hm : m.Allowed capacity s.length) : made.2.HasRoom made.1 := by
  obtain ⟨hn, hf⟩ := hs
  cases h with
  | replaced => exact hasRoom_of_seen_eq rfl
  | forked => exact hasRoom_of_seen_eq rfl
  | @inPlace dropped x may =>
    obtain ⟨hepoch, -, -⟩ := mayAppend_iff.mp may
    intro hc _
    rw [hasCompacted, bne_iff_ne, seen_grown, epoch_grown, ← hepoch, Tape.epoch_push] at hc
    rw [tape_grown, Pool.tape_put_self p hn, Tape.isFull_eq_false_iff, Tape.size_push hf.head_le,
      Tape.head_push]
    cases hfull : (p.tape s.tape).isFull with
    | false => simp [hfull] at hc
    | true =>
      have hsize := hf.size_eq
      have hroom := hm.2
      rw [if_pos rfl, Tape.keep]
      omega

/-- With room behind the head, nothing that is made of a span compacts its tape. -/
theorem epoch_eq_of_hasRoom (h : s.Made p latest m made) (hn : s.tape < p.tapes.size)
    (hr : s.HasRoom p) (hc : s.hasCompacted = true) :
    (made.1.tape s.tape).epoch = (p.tape s.tape).epoch := by
  cases h with
  | replaced => rfl
  | inPlace may =>
    obtain ⟨-, hwritten, -⟩ := mayAppend_iff.mp may
    rw [Pool.tape_put_self p hn, Tape.epoch_push, hr hc hwritten.symm, if_neg Bool.false_ne_true]
  | forked => rw [Pool.tape_add_other p hn]

end Span.Made

namespace Lineage

/-! ### Compactions -/

/-- An addition compacts a tape: the slots have been moved, and one sample was written behind them. -/
def Compacts (l : Lineage) (name i : Nat) (x : Sample) : Prop :=
  ∃ y, (l.add i x).pool.tape name = (l.pool.tape name).compact.write y

/-- None of these additions compacts the tape, each at its moment. -/
def Spares (name : Nat) (l : Lineage) : List Addition → Prop
  | [] => True
  | (i, x) :: rest => ¬ l.Compacts name i x ∧ Spares name (l.add i x) rest

variable {l : Lineage} {name : Nat}

theorem lt_size_add (hn : name < l.pool.tapes.size) (i : Nat) (x : Sample) :
    name < (l.add i x).pool.tapes.size := by
  cases hi : l.snapshots[i]? with
  | none => rwa [add_of_none hi]
  | some s =>
    rw [add_of_some hi, Snapshot.add_eq]
    exact (Span.tape_move s.span l.pool x (s.moveFor l.pool x) hn).1

/-- An addition leaves a tape alone, or writes one sample to the tape of the snapshot it is made to. -/
theorem tape_add (hn : name < l.pool.tapes.size) (i : Nat) (x : Sample) :
    (l.add i x).pool.tape name = l.pool.tape name ∨
      ∃ s y, l.snapshots[i]? = some s ∧ s.span.tape = name ∧
        (l.add i x).pool.tape name = (l.pool.tape name).push y := by
  cases hi : l.snapshots[i]? with
  | none => exact .inl (by rw [add_of_none hi])
  | some s =>
    rw [add_of_some hi]
    by_cases hs : s.span.tape = name
    · rw [Snapshot.add_eq]
      obtain ⟨-, ht | ⟨y, ht⟩⟩ := Span.tape_move s.span l.pool x (s.moveFor l.pool x) hn
      · exact .inl ht
      · exact .inr ⟨s, y, rfl, hs, ht⟩
    · exact .inl (Snapshot.tape_add_other x hn hs)

/-- An addition compacts a tape exactly if it changes the epoch of the tape. -/
theorem compacts_iff (hn : name < l.pool.tapes.size) (i : Nat) (x : Sample) :
    l.Compacts name i x ↔ ((l.add i x).pool.tape name).epoch ≠ (l.pool.tape name).epoch := by
  constructor
  · rintro ⟨y, hy⟩
    rw [hy]
    exact Nat.succ_ne_self _
  · intro he
    obtain ht | ⟨s, y, -, -, ht⟩ := tape_add hn i x
    · rw [ht] at he
      exact absurd rfl he
    · cases hf : (l.pool.tape name).isFull with
      | false =>
        rw [ht, Tape.epoch_push, hf, if_neg Bool.false_ne_true] at he
        exact absurd rfl he
      | true => exact ⟨y, ht.trans (Tape.push_of_full hf y)⟩

theorem epoch_le_add (hn : name < l.pool.tapes.size) (i : Nat) (x : Sample) :
    (l.pool.tape name).epoch ≤ ((l.add i x).pool.tape name).epoch := by
  obtain ht | ⟨s, y, -, -, ht⟩ := tape_add hn i x
  · exact Nat.le_of_eq (congrArg Tape.epoch ht.symm)
  · rw [ht, Tape.epoch_push]
    split <;> omega

theorem epoch_le_grow (hn : name < l.pool.tapes.size) (later : List Addition) :
    (l.pool.tape name).epoch ≤ ((l.grow later).pool.tape name).epoch := by
  induction later generalizing l with
  | nil => exact Nat.le_refl _
  | cons a rest ih =>
    exact Nat.le_trans (epoch_le_add hn a.1 a.2) (ih (lt_size_add hn a.1 a.2))

theorem epoch_grow_of_spares (hn : name < l.pool.tapes.size) {later : List Addition}
    (h : l.Spares name later) :
    ((l.grow later).pool.tape name).epoch = (l.pool.tape name).epoch := by
  induction later generalizing l with
  | nil => rfl
  | cons a rest ih =>
    obtain ⟨hnot, hrest⟩ := h
    rw [compacts_iff hn, ne_eq, Decidable.not_not] at hnot
    exact (ih (lt_size_add hn a.1 a.2) hrest).trans hnot

theorem getElem?_grow {j : Nat} {t : Snapshot} (h : l.snapshots[j]? = some t)
    (later : List Addition) : (l.grow later).snapshots[j]? = some t := by
  induction later generalizing l with
  | nil => exact h
  | cons a rest ih =>
    refine ih ?_
    rw [getElem?_add l a.1 a.2 (Array.getElem?_eq_some_iff.mp h).1]
    exact h

/-! ### Room after a compaction, in the whole tree -/

/-- Sound, and with room on its tape if it has compacted it. -/
def SoundWithRoom (capacity : Nat) (p : Pool) (history : List Sample) (s : Snapshot) : Prop :=
  s.Sound capacity p history ∧ s.span.HasRoom p

theorem soundWithRoom_add {capacity : Nat} {known : Array (List Sample)}
    (h : l.Each (SoundWithRoom capacity) known) (i : Nat) (x : Sample) :
    (l.add i x).Each (SoundWithRoom capacity) (branch known (i, x)) := by
  refine h.add ?_ ?_
  · rintro s - o history ⟨hsound, hroom⟩
    refine ⟨hsound.after s x, ?_⟩
    rw [Snapshot.add_eq]
    exact hsound.sits.hasRoom_after hroom s.span x _
  · rintro s history - - ⟨hsound, -⟩
    exact ⟨hsound.add x, (s.made_add l.pool x).hasRoom hsound.sits (hsound.moveFor_allowed x)⟩

theorem soundWithRoom_grow {capacity : Nat} {known : Array (List Sample)}
    (h : l.Each (SoundWithRoom capacity) known) (additions : List Addition) :
    (l.grow additions).Each (SoundWithRoom capacity) (additions.foldl branch known) := by
  induction additions generalizing l known with
  | nil => exact h
  | cons a rest ih => exact ih (soundWithRoom_add h a.1 a.2)

theorem soundWithRoom_root (series : Series) (host : String) {capacity : Nat} (hc : 1 ≤ capacity) :
    (root series host capacity).Each (SoundWithRoom capacity) #[[]] := by
  refine ⟨rfl, ?_⟩
  intro j s history hs hh
  refine ⟨(sound_root series host hc).holds hs hh, ?_⟩
  obtain ⟨-, rfl⟩ := eq_of_getElem?_root hs
  exact Span.hasRoom_of_seen_eq rfl

/-! ### What an addition does to the flags -/

theorem isOutdated_grow {capacity : Nat} {t : Snapshot} (h : t.span.Sits capacity l.pool)
    (later : List Addition) (hafter : t.span.Sits capacity (l.grow later).pool)
    (ho : t.isOutdated l.pool = true) : t.isOutdated (l.grow later).pool = true := by
  have hseen := h.isOutdated_iff.mp ho
  exact hafter.isOutdated_iff.mpr (Nat.lt_of_lt_of_le hseen (epoch_le_grow h.1 later))

/-- What the addition of `x` to the snapshot `s` at position `i`, which makes `r`, does to the flags. -/
structure TellsCompaction (l : Lineage) (i : Nat) (x : Sample) (s r : Snapshot) : Prop where
  /-- No snapshot is outdated by it unless the slots that both share are moved. -/
  compacts_of_outdated : ∀ t ∈ l.snapshots, t.isOutdated l.pool = false →
    t.isOutdated (l.add i x).pool = true →
      t.span.tape = s.span.tape ∧ l.Compacts s.span.tape i x
  /-- If they are, all who share them are outdated, the new snapshot included. -/
  outdated_of_compacts : l.Compacts s.span.tape i x → r.span.tape = s.span.tape ∧
    ∀ t ∈ (l.add i x).snapshots, t.span.tape = s.span.tape →
      t.isOutdated (l.add i x).pool = true
  current_of_spared : s.span.isRecycled l.pool = false → ¬ l.Compacts s.span.tape i x →
    r.isOutdated (l.add i x).pool = false
  hasCompacted_iff : r.span.hasCompacted = true ↔ l.Compacts s.span.tape i x
  /-- Until the slots are moved once more, additions to the new snapshot do not move them, and what
  they make is not outdated. -/
  spares_until_next : l.Compacts s.span.tape i x → ∀ later : List Addition,
    (l.add i x).Spares r.span.tape later → ∀ y : Sample,
      ¬ ((l.add i x).grow later).Compacts r.span.tape l.snapshots.size y ∧
      ∀ u ∈ (((l.add i x).grow later).add l.snapshots.size y).snapshots.back?,
        u.isOutdated (((l.add i x).grow later).add l.snapshots.size y).pool = false

variable {capacity i : Nat} {known : Array (List Sample)} {s : Snapshot}

/-- What shares the tape of a compaction had seen an earlier epoch. -/
theorem isOutdated_of_compacts (h : l.Each (SoundWithRoom capacity) known)
    (hs : l.snapshots[i]? = some s) {x : Sample} (hc : l.Compacts s.span.tape i x) {t : Snapshot}
    (ht : t ∈ (l.add i x).snapshots) (htape : t.span.tape = s.span.tape) :
    t.isOutdated (l.add i x).pool = true := by
  obtain ⟨j, hj⟩ := Array.mem_iff_getElem?.mp ht
  obtain ⟨history, hh⟩ := h.exists_history hs
  obtain ⟨hsound, -⟩ := h.holds hs hh
  have hafter := soundWithRoom_add h i x
  obtain ⟨history', hh'⟩ := hafter.exists_history hj
  obtain ⟨hsits, -⟩ := hafter.holds hj hh'
  have hmoved := (compacts_iff hsound.sits.1 i x).mp hc
  have hle := epoch_le_add hsound.sits.1 i x
  rw [Snapshot.isOutdated, hsits.sits.isOutdated_iff, htape]
  rw [add_of_some hs, Array.getElem?_push] at hj
  split at hj
  · -- the new snapshot has seen the epoch that the old one refers to
    obtain rfl := Option.some.inj hj
    have hepoch := hsound.sits.2.epoch_le
    rw [(s.made_add l.pool x).seen_eq hsound.sits.1 htape]
    omega
  · obtain ⟨history, hh⟩ := h.exists_history hj
    obtain ⟨hsits, -⟩ := h.holds hj hh
    have hseen := hsits.sits.2.seen_le
    have hepoch := hsits.sits.2.epoch_le
    rw [htape] at hepoch
    omega

/-- What a compaction has made does not compact the tape again before somebody else does. -/
theorem spares_of_hasRoom {r : Snapshot} {k : Nat} (h : l.Each (SoundWithRoom capacity) known)
    (hr : l.snapshots[k]? = some r) (hc : r.span.hasCompacted = true)
    (hl : r.span.isRecycled l.pool = false) (y : Sample) :
    ¬ l.Compacts r.span.tape k y ∧
      ∀ u ∈ (l.add k y).snapshots.back?, u.isOutdated (l.add k y).pool = false := by
  obtain ⟨history, hh⟩ := h.exists_history hr
  obtain ⟨hsound, hroom⟩ := h.holds hr hh
  have hn := hsound.sits.1
  have hepoch := (r.made_add l.pool y).epoch_eq_of_hasRoom hn hroom hc
  rw [compacts_iff hn, ne_eq, Decidable.not_not, add_of_some hr, Array.back?_push]
  refine ⟨hepoch, ?_⟩
  rintro _ ⟨⟩
  exact (r.made_add l.pool y).isOutdated_eq_false hl hepoch

theorem tellsCompaction (h : l.Each (SoundWithRoom capacity) known)
    (hs : l.snapshots[i]? = some s) (x : Sample) :
    l.TellsCompaction i x s (s.add l.pool x).2 := by
  obtain ⟨history, hh⟩ := h.exists_history hs
  obtain ⟨hsound, -⟩ := h.holds hs hh
  have hn := hsound.sits.1
  have hmade := s.made_add l.pool x
  have hcompacts := compacts_iff hn i x
  have hpool : (l.add i x).pool = (s.add l.pool x).1 := by rw [add_of_some hs]
  have hiff : (s.add l.pool x).2.span.hasCompacted = true ↔ l.Compacts s.span.tape i x := by
    rw [hcompacts, hpool]
    exact hmade.hasCompacted_iff hn
  refine ⟨?_, ?_, ?_, hiff, ?_⟩
  · intro t ht hbefore hafter
    obtain ⟨j, hj⟩ := Array.mem_iff_getElem?.mp ht
    obtain ⟨history', hh'⟩ := h.exists_history hj
    obtain ⟨hsits, -⟩ := h.holds hj hh'
    have hseen := Span.isOutdated_eq_false_iff.mp hbefore
    have hmoved : t.span.seen ≠ ((l.add i x).pool.tape t.span.tape).epoch := by
      rw [Snapshot.isOutdated, Span.isOutdated, bne_iff_ne] at hafter
      exact Ne.symm hafter
    -- the tape was written to, so it is that of the snapshot added to
    obtain hsame | ⟨s', y, hs', htape, -⟩ := tape_add hsits.sits.1 i x
    · rw [hsame] at hmoved
      exact absurd hseen hmoved
    · obtain rfl : s = s' := Option.some.inj (hs.symm.trans hs')
      refine ⟨htape.symm, hcompacts.mpr ?_⟩
      rw [htape, ← hseen]
      exact Ne.symm hmoved
  · intro hc
    refine ⟨?_, fun t ht htape => isOutdated_of_compacts h hs hc ht htape⟩
    rw [hcompacts, hpool] at hc
    exact hmade.tape_eq_of_epoch_ne hn hc
  · intro hl hc
    rw [hcompacts, hpool, ne_eq, Decidable.not_not] at hc
    rw [hpool]
    exact hmade.isOutdated_eq_false hl hc
  · intro hc later hspares y
    have hafter := soundWithRoom_add h i x
    have hlast : (l.add i x).snapshots[l.snapshots.size]? = some (s.add l.pool x).2 := by
      rw [add_of_some hs]
      exact Array.getElem?_push_size
    have hcompacted := hiff.mpr hc
    have hlive : (s.add l.pool x).2.span.isRecycled (l.add i x).pool = false := by
      rw [hpool]
      exact hmade.isRecycled_eq_false hn hcompacted
    obtain ⟨history', hh'⟩ := hafter.exists_history hlast
    obtain ⟨hnew, -⟩ := hafter.holds hlast hh'
    -- as long as it is spared, the tape is in the epoch that the new snapshot refers to
    rw [Span.isRecycled_eq_false_iff, ← epoch_grow_of_spares hnew.sits.1 hspares,
      ← Span.isRecycled_eq_false_iff] at hlive
    exact spares_of_hasRoom (soundWithRoom_grow hafter later) (getElem?_grow hlast later) hcompacted
      hlive y

end Lineage

/-- **Snapshots are outdated by compactions alone.**  Whatever the additions are made to: a snapshot
that is outdated is so for ever; and one more addition, which makes `r`, makes none outdated unless it
compacts the tape that they share, and then all that share it. -/
theorem outdated_by_compaction_alone (series : Series) (host : String) {capacity : Nat}
    (hc : 1 ≤ capacity) (ha : Snapshot.Addressable capacity) :
    ∃ l, Lineage.start series host capacity = .ok l ∧
      ∀ additions : List Addition,
        (∀ (j : Nat) (t : Snapshot), (l.grow additions).snapshots[j]? = some t →
          t.isOutdated (l.grow additions).pool = true → ∀ later : List Addition,
            (l.grow (additions ++ later)).snapshots[j]? = some t ∧
            t.isOutdated (l.grow (additions ++ later)).pool = true) ∧
        ∀ (i : Nat) (x : Sample) (s : Snapshot), (l.grow additions).snapshots[i]? = some s →
          ∃ r, ((l.grow additions).add i x).snapshots.back? = some r ∧
            (l.grow additions).TellsCompaction i x s r := by
  refine ⟨Lineage.root series host capacity, Lineage.start_eq_ok series host hc ha, ?_⟩
  intro additions
  have hbefore := Lineage.soundWithRoom_grow (Lineage.soundWithRoom_root series host hc) additions
  constructor
  · intro j t ht ho later
    have hlast := Lineage.getElem?_grow ht later
    have hafter := Lineage.soundWithRoom_grow hbefore later
    obtain ⟨history, hh⟩ := hbefore.exists_history ht
    obtain ⟨history', hh'⟩ := hafter.exists_history hlast
    rw [Lineage.grow_append]
    exact ⟨hlast, Lineage.isOutdated_grow (hbefore.holds ht hh).1.sits later
      (hafter.holds hlast hh').1.sits ho⟩
  · intro i x s hs
    refine ⟨_, ?_, Lineage.tellsCompaction hbefore hs x⟩
    rw [Lineage.add_of_some hs, Array.back?_push]

/-- Six samples in turn. -/
def six : List Addition := inTurn [⟨1, 1⟩, ⟨2, 2⟩, ⟨3, 3⟩, ⟨4, 4⟩, ⟨5, 5⟩, ⟨6, 6⟩]

/-- At capacity three the seventh sample compacts the tape of all snapshots made so far.  One more,
added to that of the first two, is given a fork, and what is added to the latest then does not compact
the tape again. -/
theorem outdated_by_compaction_alone_seventh :
    (1 ≤ 3 ∧ Snapshot.Addressable 3) ∧
      ∃ l s r, Lineage.start (Series.ofName "load") "server" 3 = .ok l ∧
        (l.grow six).snapshots[6]? = some s ∧
        ((l.grow six).add 6 ⟨7, 7⟩).snapshots.back? = some r ∧
        (l.grow six).Compacts s.span.tape 6 ⟨7, 7⟩ ∧
        s.isOutdated (l.grow six).pool = false ∧
        s.isOutdated ((l.grow six).add 6 ⟨7, 7⟩).pool = true ∧
        (l.grow (six ++ [(6, ⟨7, 7⟩)] ++ [(2, ⟨8, 8⟩)])).snapshots[6]? = some s ∧
        ¬ (((l.grow six).add 6 ⟨7, 7⟩).grow [(2, ⟨8, 8⟩)]).Compacts r.span.tape 7 ⟨9, 9⟩ := by
  refine ⟨⟨by decide, by decide⟩, ?_⟩
  obtain ⟨l, hl, h⟩ :=
    @outdated_by_compaction_alone (Series.ofName "load") "server" 3 (by decide) (by decide)
  rw [Lineage.start_eq_ok _ _ (by decide) (by decide)] at hl
  cases hl
  obtain ⟨s, hs⟩ : ∃ s, ((Lineage.root (Series.ofName "load") "server" 3).grow six).snapshots[6]? =
    some s := ⟨_, rfl⟩
  have hzero : s.span.tape = 0 := by
    cases hs
    rfl
  obtain ⟨r, hr, htells⟩ := (h six).2 6 ⟨7, 7⟩ s hs
  have hcompacted : r.span.hasCompacted = true := by
    cases hr
    decide
  have hcompacts := htells.hasCompacted_iff.mp hcompacted
  obtain ⟨htape, hall⟩ := htells.outdated_of_compacts hcompacts
  have hspares : Lineage.Spares r.span.tape
      (((Lineage.root (Series.ofName "load") "server" 3).grow six).add 6 ⟨7, 7⟩)
      [(2, ⟨8, 8⟩)] := by
    refine ⟨?_, trivial⟩
    rw [htape, hzero, Lineage.compacts_iff (by decide)]
    decide
  have hthere := Lineage.getElem?_grow hs [(6, ⟨7, 7⟩)]
  have houtdated := hall s (Array.mem_of_getElem? hthere) rfl
  refine ⟨_, s, r, Lineage.start_eq_ok _ _ (by decide) (by decide), hs, hr, hcompacts, ?_,
    houtdated, ?_, ?_⟩
  · cases hs
    decide
  · refine ((h (six ++ [(6, ⟨7, 7⟩)])).1 6 s ?_ ?_ [(2, ⟨8, 8⟩)]).1
    · rw [Lineage.grow_append]
      exact hthere
    · rw [Lineage.grow_append]
      exact houtdated
  · exact (htells.spares_until_next hcompacts _ hspares ⟨9, 9⟩).1

end MetricStore
