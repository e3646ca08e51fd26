import MetricStore.Proofs.Outdated
import MetricStore.Proofs.Schedule

/-!
Where the samples of a snapshot come from.

A snapshot may be recycled, or copied from one that was, so what it shows need not be its own.  But
every slot it reads was written by somebody, and nobody writes anything but samples that were given.
Main statement:

* `every_sample_shown_was_given`: whatever the additions are made to, each sample that a snapshot
  shows is one that some addition was made with, and stands in a slot that was written.

Design notes: slots are written from the front, and a compaction comes only when all of them have
been, so one number says which of them hold a sample (`Tape.reached`).  A collapse writes a sample put
together from a time and a value; it is the first of the run that the history ends in.
-/

namespace MetricStore

namespace Tape

/-- How many slots have been written since the tape was begun: those below the head before the first
compaction, and all of them since. -/
def reached (t : Tape) : Nat := if t.epoch = 0 then t.head else t.slots.size

/-- The slots that were reached hold samples of a kind, and all others are blank. -/
structure Filled (P : Sample → Prop) (t : Tape) : Prop where
  head_le : t.head ≤ t.slots.size
  written : ∀ i < t.reached, ∃ x, t.slot? i = some x ∧ P x
  blank : ∀ i < t.slots.size, t.reached ≤ i → t.slot? i = some Sample.blank

variable {P : Sample → Prop} {t : Tape}

theorem reached_le (hh : t.head ≤ t.slots.size) : t.reached ≤ t.slots.size := by
  rw [reached]
  split <;> omega

theorem head_le_reached (hh : t.head ≤ t.slots.size) : t.head ≤ t.reached := by
  rw [reached]
  split <;> omega

theorem reached_of_full (hh : t.head ≤ t.slots.size) (hf : t.isFull = true) :
    t.reached = t.slots.size := by
  have hfull := (isFull_iff t).mp hf
  rw [reached]
  split <;> omega

theorem reached_le_push (hh : t.head ≤ t.slots.size) (x : Sample) :
    t.reached ≤ (t.push x).reached := by
  have hle := reached_le hh
  cases hf : t.isFull with
  | false =>
    rw [reached, reached, epoch_push, head_push, size_push hh, hf, if_neg Bool.false_ne_true,
      if_neg Bool.false_ne_true]
    split <;> omega
  | true =>
    have hepoch : (t.push x).epoch ≠ 0 := by
      rw [epoch_push, if_pos hf]
      exact Nat.succ_ne_zero _
    have hafter : (t.push x).reached = t.slots.size := by
      rw [reached, if_neg hepoch, size_push hh]
    rwa [hafter]

theorem filled_blank (P : Sample → Prop) (size : Nat) : (Tape.blank size).Filled P := by
  refine ⟨Nat.zero_le _, fun i hi => absurd hi (Nat.not_lt_zero i), ?_⟩
  intro i hi _
  rw [Tape.blank, Array.size_replicate] at hi
  rw [slot?, Tape.blank, Array.getElem?_replicate, if_pos hi]

namespace Filled

/-- A write reaches one slot more, or one that was reached before. -/
theorem write (h : t.Filled P) (hlt : t.head < t.slots.size) {x : Sample} (hx : P x) :
    (t.write x).Filled P := by
  have hreached : (t.write x).reached = if t.epoch = 0 then t.head + 1 else t.slots.size := by
    rw [reached, size_write]
    rfl
  refine ⟨by rw [size_write]; exact hlt, ?_, ?_⟩
  · intro i hi
    by_cases he : i = t.head
    · subst he
      exact ⟨x, slot?_write_head hlt x, hx⟩
    · rw [slot?_write_of_ne he]
      refine h.written i ?_
      rw [hreached] at hi
      rw [reached]
      split at hi <;> split <;> omega
  · intro i hi hle
    rw [size_write] at hi
    rw [hreached] at hle
    have hne : i ≠ t.head := by
      split at hle <;> omega
    rw [slot?_write_of_ne hne]
    refine h.blank i hi ?_
    rw [reached]
    split at hle <;> split <;> omega

theorem compact (h : t.Filled P) (hf : t.isFull = true) : t.compact.Filled P := by
  have hfull := (isFull_iff t).mp hf
  have hhead := h.head_le
  have heq : t.head = t.slots.size := Nat.le_antisymm hhead hfull
  have hall := reached_of_full hhead hf
  have hsize := size_compact heq
  have hkeep := keep_le_head hf
  have hreached : t.compact.reached = t.slots.size := by
    rw [reached, hsize]
    exact if_neg (Nat.succ_ne_zero _)
  refine ⟨?_, ?_, ?_⟩
  · rw [hsize, ← heq]
    exact hkeep
  · intro i hi
    by_cases hlt : i < t.keep
    · rw [slot?_compact heq hlt]
      exact h.written _ (by omega)
    · rw [slot?_compact_of_le heq (by omega)]
      exact h.written i (by omega)
  · intro i hi hle
    omega

theorem push (h : t.Filled P) (hs : 0 < t.slots.size) {x : Sample} (hx : P x) :
    (t.push x).Filled P := by
  cases hf : t.isFull with
  | false =>
    rw [push_of_not_full hf]
    exact h.write ((isFull_eq_false_iff t).mp hf) hx
  | true =>
    have hcompact := h.compact hf
    have hsize := size_compact (Nat.le_antisymm h.head_le ((isFull_iff t).mp hf))
    rw [push_of_full hf]
    refine hcompact.write ?_ hx
    show t.keep < t.compact.slots.size
    rw [hsize, keep]
    omega

/-- A fork is reached as far as it copies slots that were. -/
theorem fork (h : t.Filled P) {start length : Nat} (hle : start + length ≤ t.reached) :
    (t.fork start length).Filled P := by
  have hstop := Nat.le_trans hle (reached_le h.head_le)
  have hhead := head_fork hstop
  have hreached : (t.fork start length).reached = length := (if_pos rfl).trans hhead
  refine ⟨?_, ?_, ?_⟩
  · rw [hhead, size_fork]
    omega
  · intro i hi
    rw [hreached] at hi
    obtain ⟨x, hslot, hx⟩ := h.written (start + i) (by omega)
    have hcopy := congrArg (·[i]?) (slice_fork hstop)
    simp only [getElem?_slice, if_pos hi, Nat.zero_add] at hcopy
    exact ⟨x, hcopy.trans hslot, hx⟩
  · intro i hi hge
    rw [size_fork] at hi
    rw [hreached] at hge
    simp only [slot?, Tape.fork]
    rw [Array.getElem?_append_right (by rw [Array.size_extract]; omega), Array.getElem?_replicate,
      if_pos (by rw [Array.size_extract]; omega)]

theorem of_mem_slice (h : t.Filled P) {start length : Nat} (hle : start + length ≤ t.reached)
    {x : Sample} (hx : x ∈ t.slice start length) : P x := by
  obtain ⟨i, hi⟩ := List.mem_iff_getElem?.mp hx
  rw [getElem?_slice] at hi
  split at hi
  · next hlt =>
    obtain ⟨y, hy, hP⟩ := h.written (start + i) (by omega)
    rw [hy] at hi
    exact Option.some.inj hi ▸ hP
  · cases hi

end Filled

end Tape

/-- The first sample of the last run is one of the history. -/
theorem Retention.head_lastRun_mem {history : List Sample} (h : history ≠ []) :
    (lastRun history).head (lastRun_ne_nil h) ∈ history := by
  have hmem : (lastRun history).head (lastRun_ne_nil h) ∈ (runs history).flatten :=
    List.mem_flatten_of_mem (lastRun_mem h) (List.head_mem (lastRun_ne_nil h))
  rwa [flatten_runs] at hmem

/-! ### What a move writes -/

/-- If the move writes a sample to a tape, it is one of the kind. -/
def Move.Writes (P : Sample → Prop) : Move → Prop
  | .replace => True
  | .commit _ x => P x

namespace Span

variable {P : Sample → Prop} {capacity : Nat} {p : Pool} {s o : Span}

theorem pushMove_writes (h : ∀ x ∈ s.latest, P x) (capacity : Nat) :
    (s.pushMove capacity).Writes P := by
  unfold pushMove
  cases hl : s.latest with
  | none => trivial
  | some last =>
    have hlast : P last := h last hl
    simp only
    split
    · exact hlast
    · split
      · trivial
      · exact hlast

theorem collapseMove_writes (p : Pool) {first : Sample} (h : P first) :
    (s.collapseMove p first).Writes P := by
  unfold collapseMove
  split
  · trivial
  · exact h

/-- The tape of a span is filled, at least as far as the span reads it. -/
structure Reads (P : Sample → Prop) (p : Pool) (s : Span) : Prop where
  filled : (p.tape s.tape).Filled P
  stop_le : s.start + s.length ≤ (p.tape s.tape).reached

theorem Reads.of_mem_samples (h : s.Reads P p) (hlatest : ∀ x ∈ s.latest, P x) {x : Sample}
    (hx : x ∈ s.samples p) : P x := by
  rw [samples] at hx
  rcases List.mem_append.mp hx with hx | hx
  · exact h.filled.of_mem_slice h.stop_le hx
  · exact hlatest x (Option.mem_toList.mp hx)

/-- The range that has just grown by a sample ends at the head, so it has been reached. -/
theorem reads_grown {t : Tape} (h : t.Filled P) (hs : 0 < t.slots.size) {start length : Nat}
    (he : start + length = t.head) (hl : length ≤ t.keep) {x : Sample} (hx : P x) {name : Nat}
    (hname : p.tape name = t.push x) (seen : Nat) (latest : Sample) :
    (grown t name seen start length x latest).Reads P p := by
  have hfilled := h.push hs hx
  have hstop := Tape.relocate_add_succ he hl x
  refine ⟨?_, ?_⟩
  · rw [tape_grown, hname]
    exact hfilled
  · rw [start_grown, length_grown, tape_grown, hname, hstop]
    exact Tape.head_le_reached hfilled.head_le

theorem Made.reads {latest : Sample} {m : Move} {made : Pool × Span} (hmade : s.Made p latest m made)
    (hs : s.Sits capacity p) (h : s.Reads P p) (hm : m.Allowed capacity s.length)
    (hw : m.Writes P) : made.2.Reads P made.1 := by
  obtain ⟨hn, hf⟩ := hs
  have hkeep := hf.length_le_keep
  cases hmade with
  | replaced => exact ⟨h.filled, h.stop_le⟩
  | inPlace may =>
    obtain ⟨-, -, hhead⟩ := mayAppend_iff.mp may
    exact reads_grown h.filled hf.size_pos hhead.symm (by omega) hw (Pool.tape_put_self p hn _) _ _
  | @forked dropped x t mayNot fork =>
    subst fork
    have hd := hm.1
    have hstop := h.stop_le
    have hle : s.start + dropped + (s.length - dropped) ≤ (p.tape s.tape).reached := by omega
    have hhead := Tape.head_fork (Nat.le_trans hle (Tape.reached_le hf.head_le))
    refine reads_grown (h.filled.fork hle) ?_ (by rw [hhead, Nat.zero_add]) ?_ hw
      (tape_add_size p _) _ _
    · rw [Tape.size_fork]
      exact hf.size_pos
    · rw [Tape.keep, Tape.size_fork, ← Tape.keep]
      omega

/-- The others read what they read, perhaps with one sample of the kind written over it. -/
theorem Made.reads_after {latest : Sample} {m : Move} {made : Pool × Span}
    (hmade : s.Made p latest m made) (ho : o.Sits capacity p) (h : o.Reads P p)
    (hw : m.Writes P) : o.Reads P made.1 := by
  obtain ⟨hn, hf⟩ := ho
  cases hmade with
  | replaced => exact h
  | @inPlace dropped x may =>
    by_cases hne : s.tape = o.tape
    · have htape : (p.put s.tape ((p.tape s.tape).push x)).tape o.tape = (p.tape o.tape).push x := by
        rw [hne]
        exact Pool.tape_put_self p hn _
      refine ⟨?_, ?_⟩
      · rw [htape]
        exact h.filled.push hf.size_pos hw
      · rw [htape]
        exact Nat.le_trans h.stop_le (Tape.reached_le_push hf.head_le x)
    · have htape : (p.put s.tape ((p.tape s.tape).push x)).tape o.tape = p.tape o.tape :=
        Pool.tape_put_other p hne _
      exact ⟨htape ▸ h.filled, htape ▸ h.stop_le⟩
  | @forked dropped x t mayNot fork =>
    have htape : (p.add (t.push x)).1.tape o.tape = p.tape o.tape := Pool.tape_add_other p hn _
    exact ⟨htape ▸ h.filled, htape ▸ h.stop_le⟩

end Span

namespace Snapshot

variable {P : Sample → Prop} {capacity : Nat} {p : Pool} {history : List Sample} {s : Snapshot}

/-- Sound, with a history of samples of a kind, and reading nothing else. -/
structure Sourced (P : Sample → Prop) (capacity : Nat) (p : Pool) (history : List Sample)
    (s : Snapshot) : Prop where
  sound : s.Sound capacity p history
  given : ∀ x ∈ history, P x
  reads : s.span.Reads P p

namespace Sourced

theorem latest (h : s.Sourced P capacity p history) : ∀ x ∈ s.span.latest, P x := by
  intro x hx
  rw [h.sound.latest_eq] at hx
  exact h.given x (List.mem_of_getLast? hx)

/-- An addition writes the latest sample of the history, or the first of the run it ends in. -/
theorem moveFor_writes (h : s.Sourced P capacity p history) (x : Sample) :
    (s.moveFor p x).Writes P := by
  unfold moveFor
  cases ha : s.action x with
  | push => exact Span.pushMove_writes h.latest s.capacity
  | merge => trivial
  | collapse =>
    by_cases hx : Retention.Repeats history x
    · rw [h.sound.nextRun_of_repeat hx]
      refine Span.collapseMove_writes p ?_
      have hfirst := Retention.head_lastRun_mem hx.ne_nil
      rw [Replay.head_lastRun hx] at hfirst
      exact h.given _ hfirst
    · -- a change is pushed
      rw [h.sound.action_of_change hx] at ha
      cases ha

theorem add (h : s.Sourced P capacity p history) {x : Sample} (hx : P x) :
    (s.add p x).2.Sourced P capacity (s.add p x).1 (history ++ [x]) := by
  refine ⟨h.sound.add x, ?_, ?_⟩
  · intro y hy
    rcases List.mem_append.mp hy with hy | hy
    · exact h.given y hy
    · exact List.mem_singleton.mp hy ▸ hx
  · exact (s.made_add p x).reads h.sound.sits h.reads (h.sound.moveFor_allowed x)
      (h.moveFor_writes x)

end Sourced

end Snapshot

namespace Lineage

/-- The sample was added to a snapshot that was there at that moment. -/
def Given (l : Lineage) (additions : List Addition) (x : Sample) : Prop :=
  ∃ earlier i, earlier ++ [(i, x)] <+: additions ∧ i < (l.grow earlier).snapshots.size

theorem sourced_root (P : Sample → Prop) (series : Series) (host : String) {capacity : Nat}
    (hc : 1 ≤ capacity) :
    (root series host capacity).Each (Snapshot.Sourced P capacity) #[[]] := by
  refine ⟨rfl, ?_⟩
  intro j s history hs hh
  have hsound := (sound_root series host hc).holds hs hh
  obtain ⟨rfl, rfl⟩ := eq_of_getElem?_root hs
  obtain rfl := Option.some.inj hh
  refine ⟨hsound, fun x hx => absurd hx List.not_mem_nil, ?_, Nat.zero_le _⟩
  show Tape.Filled P ((Pool.empty.add (Tape.blank (2 * capacity - 1))).1.tape Pool.empty.tapes.size)
  rw [Span.tape_add_size]
  exact Tape.filled_blank P _

/-- Whatever is made of the first additions deals in samples that were given in all of them. -/
theorem sourced_grow {capacity : Nat} {l : Lineage} {additions earlier : List Addition}
    (h : l.Each (Snapshot.Sourced (l.Given additions) capacity) #[[]])
    (he : earlier <+: additions) :
    (l.grow earlier).Each (Snapshot.Sourced (l.Given additions) capacity) (histories earlier) := by
  induction earlier using List.reverseRecOn with
  | nil => exact h
  | append_singleton earlier a ih =>
    obtain ⟨i, x⟩ := a
    have hbefore := ih ((List.prefix_append earlier [(i, x)]).trans he)
    have hx : i < (l.grow earlier).snapshots.size → l.Given additions x :=
      fun hi => ⟨earlier, i, he, hi⟩
    rw [grow_concat, histories_concat]
    refine hbefore.add ?_ ?_
    · intro s hs o history ho
      -- what is written comes from the history of the snapshot that is added to
      obtain ⟨history', hh⟩ := hbefore.exists_history hs
      have hsourced := hbefore.holds hs hh
      exact ⟨ho.sound.after s x, ho.given, (s.made_add _ x).reads_after ho.sound.sits ho.reads
        (hsourced.moveFor_writes x)⟩
    · intro s history hs hh hsourced
      exact hsourced.add (hx (Array.getElem?_eq_some_iff.mp hs).1)

end Lineage

/-- **No sample is made up.**  Whatever the additions are made to, recycled snapshots included, and at
every moment: each sample that a snapshot shows was added, with this time and this value, to some
snapshot of the tree; and the slots it reads are slots that were written with such samples since their
tape was begun, never blank ones. -/
theorem every_sample_shown_was_given (series : Series) (host : String) {capacity : Nat}
    (hc : 1 ≤ capacity) (ha : Snapshot.Addressable capacity) :
    ∃ l, Lineage.start series host capacity = .ok l ∧
      ∀ (additions : List Addition) (j : Nat) (s : Snapshot),
        (l.grow additions).snapshots[j]? = some s →
          (∀ x ∈ s.samples (l.grow additions).pool, l.Given additions x) ∧
          s.span.Reads (l.Given additions) (l.grow additions).pool := by
  refine ⟨Lineage.root series host capacity, Lineage.start_eq_ok series host hc ha, ?_⟩
  intro additions j s hs
  have hroot := Lineage.sourced_root ((Lineage.root series host capacity).Given additions) series
    host hc
  have hgrown := Lineage.sourced_grow hroot (List.prefix_refl additions)
  obtain ⟨history, hh⟩ := hgrown.exists_history hs
  have hsourced := hgrown.holds hs hh
  refine ⟨?_, hsourced.reads⟩
  intro x hx
  exact hsourced.reads.of_mem_samples hsourced.latest hx

/-- At capacity three the snapshot of the first two samples shows the fourth one in a recycled slot.
A fork of it shows that sample too, which was added to another branch. -/
theorem every_sample_shown_was_given_belated :
    (1 ≤ 3 ∧ Snapshot.Addressable 3) ∧
      ∃ l s, Lineage.start (Series.ofName "load") "server" 3 = .ok l ∧
        (l.grow belated).snapshots[8]? = some s ∧
        s.samples (l.grow belated).pool = [⟨4, 4⟩, ⟨2, 2⟩, ⟨8, 8⟩] ∧
        l.Given belated ⟨4, 4⟩ ∧
        s.span.start + s.span.length ≤ ((l.grow belated).pool.tape s.span.tape).reached := by
  refine ⟨⟨by decide, by decide⟩, ?_⟩
  obtain ⟨l, hl, h⟩ :=
    @every_sample_shown_was_given (Series.ofName "load") "server" 3 (by decide) (by decide)
  rw [Lineage.start_eq_ok _ _ (by decide) (by decide)] at hl
  cases hl
  obtain ⟨s, hs⟩ : ∃ s, ((Lineage.root (Series.ofName "load") "server" 3).grow
      belated).snapshots[8]? = some s := ⟨_, rfl⟩
  obtain ⟨hgiven, hreads⟩ := h belated 8 s hs
  have hshown : s.samples ((Lineage.root (Series.ofName "load") "server" 3).grow belated).pool =
      [⟨4, 4⟩, ⟨2, 2⟩, ⟨8, 8⟩] := by
    cases hs
    decide
  refine ⟨_, s, Lineage.start_eq_ok _ _ (by decide) (by decide), hs, hshown, hgiven _ ?_,
    hreads.stop_le⟩
  rw [hshown]
  decide

end MetricStore
