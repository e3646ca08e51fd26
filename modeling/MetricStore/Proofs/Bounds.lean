import MetricStore.Checked
import MetricStore.Proofs.Outdated
import MetricStore.Proofs.OwnHistory

/-!
No bound is ever exceeded.

Whatever the additions are made to, recycled snapshots included, every tape keeps its size and every
span its place on it, so the operations never go beyond the slots (`Snapshot.add?_eq_some`).  Main
statement:

* `every_snapshot_within_bounds`: the bounds of all tapes and snapshots, and the agreement of all
  ways to read a snapshot.
-/

namespace MetricStore

/-! ### Checked operations that fail nowhere -/

theorem difference?_eq_some {a b : Nat} (h : b ≤ a) : difference? a b = some (a - b) := if_pos h

namespace Tape

variable {t : Tape} {start length : Nat}

theorem slice?_eq_some (h : start + length ≤ t.slots.size) :
    t.slice? start length = some (t.slice start length) := if_pos h

theorem fork?_eq_some (h : start + length ≤ t.slots.size) :
    t.fork? start length = some (t.fork start length) := by
  rw [fork?, slice?_eq_some h]
  rfl

theorem compact?_eq_some (hf : t.isFull = true) (hh : t.head ≤ t.slots.size) :
    t.compact? = some t.compact := by
  have hkeep := keep_le_head hf
  rw [compact?, difference?_eq_some hkeep]
  show (t.slice? (t.head - t.keep) t.keep >>= fun _ => some t.compact) = some t.compact
  rw [slice?_eq_some (by omega)]
  rfl

theorem write?_eq_some (h : t.head < t.slots.size) (x : Sample) :
    t.write? x = some (t.write x) := if_pos h

theorem push?_eq_some (hh : t.head ≤ t.slots.size) (hs : 0 < t.slots.size) (x : Sample) :
    t.push? x = some (t.push x) := by
  cases hf : t.isFull with
  | false =>
    rw [push?, hf, push_of_not_full hf]
    exact write?_eq_some ((isFull_eq_false_iff t).mp hf) x
  | true =>
    have hfull : t.head = t.slots.size := Nat.le_antisymm hh ((isFull_iff t).mp hf)
    rw [push?, if_pos hf, compact?_eq_some hf hh, push_of_full hf]
    refine write?_eq_some ?_ x
    rw [size_compact hfull]
    show t.keep < t.slots.size
    rw [keep]
    omega

/-- The start of a range that ends at the head is not before the part that a compaction moves. -/
theorem relocate?_eq_some (he : start + length = t.head) (hl : length ≤ t.keep) :
    t.relocate? start = some (t.relocate start) := by
  rw [relocate?, relocate]
  cases hf : t.isFull with
  | false => rfl
  | true =>
    have hkeep := keep_le_head hf
    rw [if_pos rfl, if_pos rfl, difference?_eq_some hkeep]
    exact difference?_eq_some (by omega)

theorem append?_eq_some (hh : t.head ≤ t.slots.size) (hs : 0 < t.slots.size)
    (he : start + length = t.head) (hl : length ≤ t.keep) (x : Sample) :
    t.append? start x = some (t.append start x) := by
  rw [append?, push?_eq_some hh hs, relocate?_eq_some he hl]
  rfl

end Tape

namespace Span

variable {capacity : Nat} {p : Pool} {s : Span}

theorem Sits.samples?_eq_some (h : s.Sits capacity p) : s.samples? p = some (s.samples p) := by
  rw [samples?, Tape.slice?_eq_some h.2.stop_le]
  rfl

/-- What is left of the range can be prolonged, in place or on a fork. -/
theorem Sits.commit?_eq_some (h : s.Sits capacity p) {dropped : Nat} {x : Sample}
    (hm : (Move.commit dropped x).Allowed capacity s.length) (latest : Sample) :
    s.commit? p (s.start + dropped) (s.length - dropped) x latest =
      some (s.commit p (s.start + dropped) (s.length - dropped) x latest) := by
  obtain ⟨-, hf⟩ := h
  have hstop := hf.stop_le
  have hkeep := hf.length_le_keep
  have hd := hm.1
  rw [commit?, commit]
  cases ha : s.mayAppend (p.tape s.tape) (s.start + dropped + (s.length - dropped)) with
  | true =>
    obtain ⟨-, -, hhead⟩ := mayAppend_iff.mp ha
    rw [if_pos rfl, if_pos rfl, Tape.append?_eq_some hf.head_le hf.size_pos hhead.symm (by omega)]
    rfl
  | false =>
    have hle : s.start + dropped + (s.length - dropped) ≤ (p.tape s.tape).slots.size := by omega
    have hroom := Tape.isFull_fork hle (by omega) hf.size_pos
    have hhead := Tape.head_fork hle
    have hkeep' : ((p.tape s.tape).fork (s.start + dropped) (s.length - dropped)).keep =
        (p.tape s.tape).keep := by
      rw [Tape.keep, Tape.keep, Tape.size_fork]
    have hstart : 0 + (s.length - dropped) =
        ((p.tape s.tape).fork (s.start + dropped) (s.length - dropped)).head := by
      rw [hhead, Nat.zero_add]
    have happend := Tape.append?_eq_some (Nat.le_of_lt ((Tape.isFull_eq_false_iff _).mp hroom))
      (by rw [Tape.size_fork]; exact hf.size_pos) hstart (by rw [hkeep']; omega) x
    rw [if_neg Bool.false_ne_true, if_neg Bool.false_ne_true, Tape.fork?_eq_some hle]
    show (if ((p.tape s.tape).fork (s.start + dropped) (s.length - dropped)).isFull = true then none
      else _) = _
    rw [if_neg (by rw [hroom]; exact Bool.false_ne_true), happend]
    rfl

theorem Sits.push?_eq_some (h : s.Sits capacity p) (x : Sample) :
    s.push? p capacity x = some (s.push p capacity x) := by
  have hallowed := h.pushMove_allowed
  unfold pushMove at hallowed
  rw [push?, push]
  cases hl : s.latest with
  | none => rfl
  | some last =>
    simp only [hl] at hallowed ⊢
    split
    · next hc =>
      rw [if_pos hc] at hallowed
      exact h.commit?_eq_some hallowed x
    · next hc =>
      rw [if_neg hc] at hallowed
      split
      · rfl
      · next hz =>
        rw [if_neg hz] at hallowed
        rw [difference?_eq_some (by omega)]
        exact h.commit?_eq_some hallowed x

theorem Sits.collapse?_eq_some (h : s.Sits capacity p) (hc : 2 ≤ capacity) (first x : Sample) :
    s.collapse? p first x = some (s.collapse p first x) := by
  rw [collapse?, collapse]
  split
  · rfl
  · have hallowed : (Move.commit s.length first).Allowed capacity s.length :=
      ⟨Nat.le_refl _, by omega⟩
    have hcommit := h.commit?_eq_some hallowed x
    rw [Nat.sub_self] at hcommit
    exact hcommit

end Span

/-- A run collapses only if it is long and there is room for both of its ends. -/
theorem Retention.of_action_eq_collapse {capacity : Nat} {run : Run} {changed : Bool}
    (h : action capacity run changed = .collapse) :
    threshold capacity ≤ run.count ∧ 2 ≤ capacity := by
  unfold action at h
  split at h
  · cases h
  · split at h
    · next hc => exact hc
    · cases h

/-- **No bound is exceeded by an addition**, whatever the tape of the snapshot has gone through. -/
theorem Snapshot.add?_eq_some {p : Pool} {s : Snapshot} (h : s.span.Sits s.capacity p)
    (x : Sample) : s.add? p x = some (s.add p x) := by
  rw [add?, add]
  cases ha : Retention.action s.capacity (s.run.observe x.time (s.isChange x)) (s.isChange x) with
  | push =>
    simp only
    rw [h.push?_eq_some]
    rfl
  | merge =>
    simp only
    rfl
  | collapse =>
    simp only
    rw [h.collapse?_eq_some (Retention.of_action_eq_collapse ha).2]
    rfl

/-! ### Tapes -/

/-- All tapes have the size that the capacity asks for, and their heads are on it or right behind. -/
def Pool.WithinBounds (capacity : Nat) (p : Pool) : Prop :=
  ∀ name < p.tapes.size, (p.tape name).slots.size = 2 * capacity - 1 ∧
    (p.tape name).head ≤ 2 * capacity - 1

theorem Span.Sits.withinBounds_move {capacity : Nat} {p : Pool} {s : Span}
    (h : s.Sits capacity p) (hp : p.WithinBounds capacity) (latest : Sample) {m : Move}
    (hm : m.Allowed capacity s.length) : (s.move p latest m).1.WithinBounds capacity := by
  intro name hn
  by_cases hold : name < p.tapes.size
  · obtain ⟨hsize, hhead⟩ := hp name hold
    obtain ⟨-, ht | ⟨x, ht⟩⟩ := tape_move s p latest m hold
    · exact ht ▸ ⟨hsize, hhead⟩
    · have hle : (p.tape name).head ≤ (p.tape name).slots.size := hsize ▸ hhead
      have hpos := h.2.pos
      rw [ht, ← hsize, Tape.size_push hle]
      exact ⟨rfl, Tape.head_push_le (by omega) x⟩
  · -- a new tape is the one that the new span sits on
    obtain ⟨hname, hsize⟩ : (s.move p latest m).2.tape = p.tapes.size ∧
        (s.move p latest m).1.tapes.size = p.tapes.size + 1 := by
      rcases tape_of_move s p latest m with ⟨-, hsize⟩ | hfork
      · omega
      · exact hfork
    obtain rfl : name = (s.move p latest m).2.tape := by omega
    obtain ⟨-, hfits⟩ := h.move latest hm
    exact ⟨hfits.size_eq, hfits.size_eq ▸ hfits.head_le⟩

theorem Lineage.withinBounds_grow (series : Series) (host : String) {capacity : Nat}
    (hc : 1 ≤ capacity) (additions : List Addition) :
    ((root series host capacity).grow additions).pool.WithinBounds capacity := by
  induction additions using List.reverseRecOn with
  | nil =>
    intro name hn
    obtain rfl : name = 0 := Nat.lt_one_iff.mp hn
    have hfits := (Span.sits_fresh hc Pool.empty).2
    exact ⟨hfits.size_eq, hfits.size_eq ▸ hfits.head_le⟩
  | append_singleton additions a ih =>
    obtain ⟨i, x⟩ := a
    have hbefore := sound_grow series host hc additions
    rw [grow_concat]
    cases hs : ((root series host capacity).grow additions).snapshots[i]? with
    | none =>
      rw [add_of_none hs]
      exact ih
    | some s =>
      obtain ⟨history, hh⟩ := hbefore.exists_history hs
      have hsound := hbefore.holds hs hh
      rw [add_of_some hs, Snapshot.add_eq]
      exact hsound.sits.withinBounds_move ih x (hsound.moveFor_allowed x)

/-! ### Sizes -/

/-- An action leaves one sample more than before at most, unless it leaves the ends of a run. -/
theorem Retention.length_apply_action_le_max (capacity : Nat) (since : Int64) (x : Sample)
    (kept : List Sample) (run : Run) (changed : Bool) :
    (apply capacity since x kept (action capacity run changed)).length ≤
      max (kept.length + 1) run.count := by
  cases ha : action capacity run changed with
  | push =>
    simp only [apply, List.length_append, List.length_singleton]
    split
    · omega
    · rw [List.length_drop]
      omega
  | merge =>
    simp only [apply, List.length_append, List.length_dropLast, List.length_singleton]
    omega
  | collapse =>
    obtain ⟨hlong, hc⟩ := of_action_eq_collapse ha
    rw [threshold] at hlong
    simp only [apply, List.length_cons, List.length_nil]
    omega

/-- No more samples are kept than were ever given. -/
theorem Replay.length_samples_le_count (capacity : Nat) (history : List Sample) :
    (ofHistory capacity history).samples.length ≤ (ofHistory capacity history).summary.count := by
  suffices h : (ofHistory capacity history).samples.length ≤
        (ofHistory capacity history).summary.count ∧
      (ofHistory capacity history).run.count ≤ (ofHistory capacity history).summary.count from h.1
  induction history using List.reverseRecOn with
  | nil => exact ⟨Nat.le_refl _, Nat.le_refl _⟩
  | append_singleton history x ih =>
    rw [ofHistory_concat]
    generalize ofHistory capacity history = r at ih
    obtain ⟨hsamples, hrun⟩ := ih
    have hrun' : (r.run.observe x.time (r.isChange x)).count ≤ r.summary.count + 1 := by
      rw [Run.observe]
      split
      · exact Nat.le_add_left _ _
      · exact Nat.succ_le_succ hrun
    have hlen := Retention.length_apply_action_le_max capacity
      (r.run.observe x.time (r.isChange x)).since x r.samples
      (r.run.observe x.time (r.isChange x)) (r.isChange x)
    refine ⟨Nat.le_trans hlen ?_, hrun'⟩
    exact Nat.max_le.mpr ⟨Nat.succ_le_succ hsamples, hrun'⟩

/-- Only the snapshot that a dataset begins with was given nothing. -/
theorem eq_nil_iff_of_histories {additions : List Addition} {j : Nat} {history : List Sample}
    (h : (histories additions)[j]? = some history) : history = [] ↔ j = 0 := by
  induction additions using List.reverseRecOn generalizing j history with
  | nil =>
    rw [histories, List.foldl_nil, List.getElem?_toArray, List.getElem?_singleton] at h
    split at h
    · next hj =>
      cases h
      exact iff_of_true rfl hj
    · cases h
  | append_singleton additions a ih =>
    rw [histories_concat, branch] at h
    split at h
    · exact ih h
    · next known hknown =>
      rw [Array.getElem?_push] at h
      split at h
      · next hj =>
        cases h
        have hpos := (Array.getElem?_eq_some_iff.mp hknown).1
        exact iff_of_false (by simp) (by omega)
      · exact ih h

/-! ### The bounds and the readings of every snapshot -/

namespace Snapshot

/-- A snapshot keeps to its capacity and to its tape, and no addition to it exceeds a bound. -/
structure WithinBounds (capacity : Nat) (p : Pool) (s : Snapshot) : Prop where
  tape_lt : s.span.tape < p.tapes.size
  length_le : s.span.length ≤ capacity - 1
  stop_le : s.span.start + s.span.length ≤ 2 * capacity - 1
  size_le : s.size ≤ capacity
  size_le_count : s.size ≤ s.summary.count
  reads : s.span.samples? p = some (s.samples p)
  adds : ∀ x, s.add? p x = some (s.add p x)

/-- All ways to read a snapshot agree with its samples. -/
structure ReadsAlike (p : Pool) (s : Snapshot) : Prop where
  length_flatten : (Sample.flatten (s.samples p)).length = 2 * s.size
  isSome_sample? : ∀ i, (s.sample? p i).isSome ↔ i < s.size
  sample?_eq : ∀ i, s.sample? p i = (s.samples p)[i]?
  firstTime_eq : s.firstTime p = ((s.samples p).head?.map Sample.time).getD (-1)
  lastTime_eq : s.lastTime = ((s.samples p).getLast?.map Sample.time).getD (-1)
  lastValue_eq : s.lastValue = ((s.samples p).getLast?.map Sample.value).getD 0

variable {capacity : Nat} {p : Pool} {history : List Sample} {s : Snapshot}

theorem Sound.withinBounds (h : s.Sound capacity p history) : s.WithinBounds capacity p := by
  obtain ⟨htape, hfits⟩ := h.sits
  have hcount : s.size ≤ s.summary.count := by
    rw [h.follows.size_eq, h.follows.summary_eq]
    exact Replay.length_samples_le_count capacity history
  exact ⟨htape, Nat.le_sub_one_of_lt hfits.length_lt, hfits.size_eq ▸ hfits.stop_le,
    h.sits.size_le, hcount, h.sits.samples?_eq_some, add?_eq_some h.sits'⟩

theorem Sound.readsAlike (h : s.Sound capacity p history) : s.ReadsAlike p := by
  have hlen : (s.samples p).length = s.size := h.sits.length_samples
  have hsample : ∀ i, s.sample? p i = (s.samples p)[i]? := h.sits.sample?_eq
  have hlast : (s.samples p).getLast? = s.span.latest :=
    h.getLast?_samples.trans h.follows.latest_eq.symm
  refine ⟨?_, ?_, hsample, ?_, ?_, ?_⟩
  · rw [Sample.length_flatten, hlen]
  · intro i
    rw [hsample, ← hlen]
    simp
  · rw [firstTime, hsample, List.head?_eq_getElem?]
  · rw [lastTime, hlast]
  · rw [lastValue, hlast]

end Snapshot

/-- **Bounds and shape of every snapshot.**  Whatever the additions are made to, and at every moment,
recycled snapshots included: every tape has the slots that the capacity asks for and its head on
them or right behind; every snapshot keeps to its capacity, its history and its tape, so that no
addition to it and no copy of its range is cut short or goes beyond a bound; it has a latest sample
unless it is the one that the dataset began with; and all ways to read it agree. -/
theorem every_snapshot_within_bounds (series : Series) (host : String) {capacity : Nat}
    (hc : 1 ≤ capacity) (ha : Snapshot.Addressable capacity) :
    ∃ l, Lineage.start series host capacity = .ok l ∧
      ∀ additions : List Addition,
        (l.grow additions).pool.WithinBounds capacity ∧
        ∀ (j : Nat) (s : Snapshot), (l.grow additions).snapshots[j]? = some s →
          s.WithinBounds capacity (l.grow additions).pool ∧
          s.ReadsAlike (l.grow additions).pool ∧
          (s.span.latest = none ↔ j = 0) := by
  refine ⟨Lineage.root series host capacity, Lineage.start_eq_ok series host hc ha, ?_⟩
  intro additions
  refine ⟨Lineage.withinBounds_grow series host hc additions, ?_⟩
  intro j s hs
  have hgrown := Lineage.sound_grow series host hc additions
  obtain ⟨history, hh⟩ := hgrown.exists_history hs
  have hsound := hgrown.holds hs hh
  refine ⟨hsound.withinBounds, hsound.readsAlike, ?_⟩
  rw [hsound.latest_eq, List.getLast?_eq_none_iff]
  exact eq_nil_iff_of_histories hh

/-- After eight additions at capacity three, the snapshot of the first two samples shows a slot that
was written since; even an addition to it that has to fork exceeds no bound. -/
theorem every_snapshot_within_bounds_belated :
    (1 ≤ 3 ∧ Snapshot.Addressable 3) ∧
      ∃ l s, Lineage.start (Series.ofName "load") "server" 3 = .ok l ∧
        (l.grow belated).snapshots[2]? = some s ∧
        s.samples (l.grow belated).pool = [⟨4, 4⟩, ⟨2, 2⟩] ∧
        s.add? (l.grow belated).pool ⟨9, 9⟩ = some (s.add (l.grow belated).pool ⟨9, 9⟩) ∧
        s.firstTime (l.grow belated).pool = 4 := by
  refine ⟨⟨by decide, by decide⟩, ?_⟩
  obtain ⟨l, hl, h⟩ :=
    @every_snapshot_within_bounds (Series.ofName "load") "server" 3 (by decide) (by decide)
  rw [Lineage.start_eq_ok _ _ (by decide) (by decide)] at hl
  cases hl
  obtain ⟨hwithin, hreads, -⟩ := (h belated).2 2 _ rfl
  exact ⟨_, _, Lineage.start_eq_ok _ _ (by decide) (by decide), rfl, by decide,
    hwithin.adds ⟨9, 9⟩, hreads.firstTime_eq.trans (by decide)⟩

end MetricStore
