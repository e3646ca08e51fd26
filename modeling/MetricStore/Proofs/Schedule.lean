import MetricStore.Proofs.OwnHistory
import MetricStore.Proofs.Pace

/-!
When the snapshots of a chain are outdated.

In a chain every sample is added to the snapshot that wrote last, so all writes go to one tape and
nothing is forked.  Which samples are written is a matter of the history alone
(`Snapshot.Sound.isCommit_moveFor_iff`), and how often the tape has been compacted is a matter of the
number of writes (`Tape.Paced.epoch_eq`).  Main statement:

* `in_turn_outdated_iff`: after any history, the number of writes, the epoch of the tape and the
  snapshots that are outdated.
-/

namespace MetricStore

/-! ### Which samples are written -/

namespace Retention

variable {capacity : Nat} {history : List Sample} {x : Sample}

theorem writes_concat (capacity : Nat) (history : List Sample) (x : Sample) :
    writes capacity (history ++ [x]) =
      writes capacity history + if isWrite capacity (history ++ [x]) then 1 else 0 := by
  rw [writes, writes, List.length_append, List.length_singleton, List.range_succ,
    List.countP_append, List.countP_singleton, List.take_of_length_le (by simp)]
  congr 1
  · refine List.countP_congr fun i hi => ?_
    rw [List.take_append_of_le_length (List.mem_range.mp hi)]
  · simp only [decide_eq_true_eq]

theorem writes_take_le (capacity : Nat) (history : List Sample) (i : Nat) :
    writes capacity (history.take i) ≤ writes capacity history := by
  induction history using List.reverseRecOn with
  | nil => rw [List.take_nil]
  | append_singleton history x ih =>
    by_cases hi : i ≤ history.length
    · rw [List.take_append_of_le_length hi, writes_concat]
      exact Nat.le_add_right_of_le ih
    · rw [List.take_of_length_le (by simp; omega)]

theorem runLength_eq (history : List Sample) : runLength history = (lastRun history).length := by
  rw [runLength, lastRun]
  cases (runs history).getLast? with
  | none => rfl
  | some run => rfl

theorem isWrite_concat_of_change (hx : ¬ Repeats history x) :
    isWrite capacity (history ++ [x]) ↔ 2 ≤ capacity ∧ history ≠ [] := by
  rw [isWrite, runLength_eq, lastRun_concat_of_change hx, ← List.length_pos_iff]
  simp only [List.length_append, List.length_singleton, true_or, and_true]
  omega

theorem isWrite_concat_of_repeat (hx : Repeats history x) :
    isWrite capacity (history ++ [x]) ↔ 2 ≤ capacity ∧ ((lastRun history).length = 1 ∨
      (lastRun history).length + 1 = 2 * capacity - 1 ∧ 2 < (kept capacity history).length) := by
  have hhistory := List.length_pos_iff.mpr hx.ne_nil
  have hrun := List.length_pos_iff.mpr (lastRun_ne_nil hx.ne_nil)
  rw [isWrite, runLength_eq, lastRun_concat_of_repeat hx, List.dropLast_concat]
  simp only [List.length_append, List.length_singleton]
  omega

/-- With room for two samples, both ends of the latest run are kept behind all else, and nothing
else if the run is long. -/
theorem kept_eq_concat_ends (hc : 2 ≤ capacity) (hx : Repeats history x)
    (hrun : 2 ≤ (lastRun history).length) :
    ∃ before last, kept capacity history =
        before ++ [⟨(Replay.ofHistory capacity history).run.since, x.value⟩, last] ∧
      (2 * capacity - 1 ≤ (lastRun history).length → before = []) := by
  have hne := hx.ne_nil
  obtain ⟨front, last, hlast⟩ :=
    (List.eq_nil_or_concat' (lastRun history)).resolve_left (lastRun_ne_nil hne)
  have hfront : front ≠ [] := by
    rintro rfl
    rw [hlast] at hrun
    exact absurd hrun (by simp)
  have hends : ends (lastRun history) =
      [⟨(Replay.ofHistory capacity history).run.since, x.value⟩, last] := by
    have hhead : (lastRun history).head (lastRun_ne_nil hne) =
        ⟨(Replay.ofHistory capacity history).run.since, x.value⟩ := Replay.head_lastRun hx
    simp only [hlast, List.head_append_of_ne_nil hfront] at hhead
    rw [hlast, ends_concat hfront, hhead]
  rw [kept_eq, remembered, runs_eq hne, fromLast_concat]
  split
  · refine ⟨[], last, ?_, fun _ => rfl⟩
    rw [List.flatMap_singleton, hends, lastOf_of_length_le hc]
    rfl
  · next hshort =>
    refine ⟨lastOf (capacity - 1 - 1)
      ((fromLast (fun run => 2 * capacity - 1 ≤ run.length) (earlierRuns history)).flatMap ends),
      last, ?_, fun hlong => absurd (decide_eq_true hlong) hshort⟩
    rw [List.flatMap_append, List.flatMap_singleton, hends, List.append_cons,
      lastOf_concat (by omega), lastOf_concat (by omega), List.append_assoc]
    rfl

end Retention

/-- The move writes to a tape. -/
def Move.IsCommit : Move → Prop
  | .replace => False
  | .commit _ _ => True

namespace Span

variable {capacity : Nat} {p : Pool} {s : Span}

theorem Sits.isCommit_pushMove_iff (h : s.Sits capacity p) :
    (s.pushMove capacity).IsCommit ↔ 2 ≤ capacity ∧ s.latest ≠ none := by
  have hlt := h.2.length_lt
  unfold pushMove
  cases hl : s.latest with
  | none => simp [Move.IsCommit]
  | some last =>
    have hsize := size_of_some hl
    simp only [ne_eq, reduceCtorEq, not_false_eq_true, and_true]
    split
    · exact iff_of_true trivial (by omega)
    · split
      · exact iff_of_false id (by omega)
      · exact iff_of_true trivial (by omega)

/-- A collapse writes unless what it leaves is all that is held. -/
theorem Sits.isCommit_collapseMove_iff (h : s.Sits capacity p) {before : List Sample}
    {first last : Sample} (hs : s.samples p = before ++ [first, last]) :
    (s.collapseMove p first).IsCommit ↔ before ≠ [] := by
  have hlatest : s.latest.isSome := by
    cases hl : s.latest with
    | none =>
      rw [h.samples_of_none hl] at hs
      simp at hs
    | some last => rfl
  have hlen : s.length = before.length + 1 := by
    have hsize := h.length_samples
    rw [hs, size, if_pos hlatest, List.length_append] at hsize
    simpa using hsize.symm
  rw [collapseMove, h.sample?_eq, hs, hlen]
  cases before with
  | nil =>
    rw [if_pos ⟨rfl, hlatest, rfl⟩]
    exact iff_of_false id (fun hne => hne rfl)
  | cons y rest =>
    rw [if_neg (by simp)]
    exact iff_of_true trivial (List.cons_ne_nil y rest)

end Span

namespace Snapshot

variable {capacity : Nat} {p : Pool} {history : List Sample} {s : Snapshot} {x : Sample}

theorem Sound.action_of_change (h : s.Sound capacity p history)
    (hx : ¬ Retention.Repeats history x) : s.action x = .push := by
  rw [action, isChange_eq h.follows, Replay.isChange_of_change hx]
  rfl

theorem Sound.isChange_of_repeat (h : s.Sound capacity p history)
    (hx : Retention.Repeats history x) : s.isChange x = false := by
  rw [isChange_eq h.follows, Replay.isChange_eq_false_iff]
  exact hx

/-- A repeat prolongs the run that the history ends in. -/
theorem Sound.nextRun_of_repeat (h : s.Sound capacity p history)
    (hx : Retention.Repeats history x) :
    s.nextRun x = ⟨(Replay.ofHistory capacity history).run.since,
      (Retention.lastRun history).length + 1⟩ := by
  rw [nextRun, h.isChange_of_repeat hx, h.follows.run_eq, Replay.run_ofHistory]
  rfl

theorem Sound.action_of_repeat (h : s.Sound capacity p history)
    (hx : Retention.Repeats history x) :
    s.action x =
      if (Retention.lastRun history).length = 1 then .push
      else if 2 * capacity - 1 ≤ (Retention.lastRun history).length + 1 ∧ 2 ≤ capacity
        then .collapse
      else .merge := by
  rw [action, h.nextRun_of_repeat hx, h.isChange_of_repeat hx, h.capacity_eq]
  simp only [Retention.action, Bool.false_or, beq_iff_eq, Nat.reduceEqDiff]
  rfl

/-- **Which samples are written.**  An addition to a snapshot that shows its own samples writes to a
tape exactly where the history says so. -/
theorem Sound.isCommit_moveFor_iff (h : s.Sound capacity p history)
    (hs : s.ShowsOwn capacity p history) (x : Sample) :
    (s.moveFor p x).IsCommit ↔ Retention.isWrite capacity (history ++ [x]) := by
  have hpush : (s.span.pushMove s.capacity).IsCommit ↔ 2 ≤ capacity ∧ history ≠ [] := by
    rw [h.sits'.isCommit_pushMove_iff, h.capacity_eq, h.latest_eq, ne_eq, ne_eq,
      List.getLast?_eq_none_iff]
  by_cases hx : Retention.Repeats history x
  · have hpos := List.length_pos_iff.mpr (Retention.lastRun_ne_nil hx.ne_nil)
    rw [Retention.isWrite_concat_of_repeat hx, moveFor, h.action_of_repeat hx]
    by_cases hsecond : (Retention.lastRun history).length = 1
    · rw [if_pos hsecond]
      refine hpush.trans ⟨fun hw => ⟨hw.1, .inl hsecond⟩, fun hw => ⟨hw.1, hx.ne_nil⟩⟩
    · rw [if_neg hsecond]
      by_cases hlong : 2 * capacity - 1 ≤ (Retention.lastRun history).length + 1 ∧
          2 ≤ capacity
      · -- a collapse writes unless both ends of the run are all that is kept
        obtain ⟨before, last, hkept, hnil⟩ :=
          Retention.kept_eq_concat_ends hlong.2 hx (by omega)
        have hshown : s.samples p =
            before ++ [⟨(Replay.ofHistory capacity history).run.since, x.value⟩, last] := by
          rw [hs, Replay.samples_ofHistory (by omega), hkept]
        rw [if_pos hlong, h.nextRun_of_repeat hx]
        refine (h.sits'.isCommit_collapseMove_iff hshown).trans ?_
        have hshort : 2 * capacity - 1 ≤ (Retention.lastRun history).length →
            before.length = 0 := fun hle => List.length_eq_zero_iff.mpr (hnil hle)
        rw [hkept, List.length_append, List.length_cons, List.length_singleton,
          ← List.length_pos_iff]
        omega
      · -- a merge writes nothing
        rw [if_neg hlong]
        exact iff_of_false id (by omega)
  · rw [Retention.isWrite_concat_of_change hx, moveFor, h.action_of_change hx]
    exact hpush

end Snapshot

/-! ### The span that wrote last -/

namespace Span

/-- The span made the last write to its tape. -/
def IsWriter (s : Span) (p : Pool) : Prop := s.written = (p.tape s.tape).written

variable {capacity : Nat} {p : Pool} {s : Span}

theorem Sits.mayAppend_of_isWriter (h : s.Sits capacity p) (hw : s.IsWriter p) {dropped : Nat}
    (hd : dropped ≤ s.length) :
    s.mayAppend (p.tape s.tape) (s.start + dropped + (s.length - dropped)) = true := by
  obtain ⟨hepoch, hstop⟩ := h.2.writer hw
  exact mayAppend_iff.mpr ⟨hepoch.symm, hw.symm, by omega⟩

/-- What is made of the span that wrote last stays on its tape and has written last; it notes the
epoch that the tape had before. -/
theorem Sits.isWriter_move (h : s.Sits capacity p) (hw : s.IsWriter p) (latest : Sample)
    {m : Move} (hm : m.Allowed capacity s.length) :
    (s.move p latest m).2.tape = s.tape ∧
      (s.move p latest m).2.seen = (p.tape s.tape).epoch ∧
      (s.move p latest m).2.IsWriter (s.move p latest m).1 := by
  have hepoch := (h.2.writer hw).1
  cases m with
  | replace => exact ⟨rfl, hepoch, hw⟩
  | commit dropped x =>
    rw [Span.move, commit_in_place (h.mayAppend_of_isWriter hw hm.1)]
    refine ⟨tape_grown .., hepoch, ?_⟩
    rw [IsWriter, tape_grown, Pool.tape_put_self p h.1]
    rfl

/-- A commit of the span that wrote last is one push to its tape. -/
theorem Sits.tape_move_of_isWriter (h : s.Sits capacity p) (hw : s.IsWriter p) (latest : Sample)
    {m : Move} (hm : m.Allowed capacity s.length) :
    m.IsCommit ∧ (∃ x, (s.move p latest m).1.tape s.tape = (p.tape s.tape).push x) ∨
      ¬ m.IsCommit ∧ (s.move p latest m).1.tape s.tape = p.tape s.tape := by
  cases m with
  | replace => exact .inr ⟨id, rfl⟩
  | commit dropped x =>
    rw [Span.move, commit_in_place (h.mayAppend_of_isWriter hw hm.1)]
    exact .inl ⟨trivial, x, Pool.tape_put_self p h.1 _⟩

end Span

namespace Snapshot

variable {capacity : Nat} {p : Pool} {history : List Sample} {s : Snapshot}

theorem Sound.isWriter_add (h : s.Sound capacity p history) (hw : s.span.IsWriter p)
    (x : Sample) :
    (s.add p x).2.span.tape = s.span.tape ∧
      (s.add p x).2.span.seen = (p.tape s.span.tape).epoch ∧
      (s.add p x).2.span.IsWriter (s.add p x).1 := by
  rw [add_eq]
  exact h.sits.isWriter_move hw x (h.moveFor_allowed x)

/-- Where the history says so, the next sample of the snapshot that wrote last is one push. -/
theorem Sound.tape_add_of_isWriter (h : s.Sound capacity p history)
    (hs : s.ShowsOwn capacity p history) (hw : s.span.IsWriter p) (x : Sample) :
    Retention.isWrite capacity (history ++ [x]) ∧
        (∃ y, (s.add p x).1.tape s.span.tape = (p.tape s.span.tape).push y) ∨
      ¬ Retention.isWrite capacity (history ++ [x]) ∧
        (s.add p x).1.tape s.span.tape = p.tape s.span.tape := by
  rw [add_eq, ← h.isCommit_moveFor_iff hs x]
  exact h.sits.tape_move_of_isWriter hw x (h.moveFor_allowed x)

/-- The tape of the snapshot that wrote last keeps its pace, and is written as the history says. -/
theorem Sound.paced_add (h : s.Sound capacity p history) (hs : s.ShowsOwn capacity p history)
    (hw : s.span.IsWriter p) (hpaced : (p.tape s.span.tape).Paced capacity)
    (hwritten : (p.tape s.span.tape).written = Retention.writes capacity history) (x : Sample) :
    ((s.add p x).1.tape s.span.tape).Paced capacity ∧
      ((s.add p x).1.tape s.span.tape).written = Retention.writes capacity (history ++ [x]) := by
  rw [Retention.writes_concat]
  obtain ⟨hwrite, y, ht⟩ | ⟨hwrite, ht⟩ := h.tape_add_of_isWriter hs hw x
  · rw [ht, if_pos hwrite, Tape.written_push, hwritten]
    exact ⟨hpaced.push y, rfl⟩
  · rw [ht, if_neg hwrite]
    exact ⟨hpaced, hwritten⟩

end Snapshot

/-! ### The chain -/

namespace Lineage

/-- A chain after a history: all its snapshots share the one tape, which is as often written and
compacted as the history says; each has noted the epoch from before its own addition. -/
structure OnSchedule (capacity : Nat) (l : Lineage) (history : List Sample) : Prop where
  ends : l.EndsIn capacity history
  paced : (l.pool.tape 0).Paced capacity
  written_eq : (l.pool.tape 0).written = Retention.writes capacity history
  writer : ∀ s, l.snapshots[history.length]? = some s → s.span.IsWriter l.pool
  link : ∀ i s, l.snapshots[i]? = some s →
    s.span.tape = 0 ∧ s.size = (Retention.kept capacity (history.take i)).length ∧
      s.span.seen = Retention.epochAfter capacity (Retention.writes capacity (history.take (i - 1)))

variable {capacity : Nat} {l : Lineage} {history : List Sample}

theorem OnSchedule.epoch_eq (h : l.OnSchedule capacity history) :
    (l.pool.tape 0).epoch =
      Retention.epochAfter capacity (Retention.writes capacity history) := by
  rw [h.paced.epoch_eq, h.written_eq]

/-- One more sample, given to the latest snapshot, keeps the chain on schedule. -/
theorem OnSchedule.add (h : l.OnSchedule capacity history) (x : Sample) :
    (l.add history.length x).OnSchedule capacity (history ++ [x]) := by
  obtain ⟨hsize, s, hs, hsound, hshow⟩ := h.ends
  obtain ⟨htape, -, -⟩ := h.link _ _ hs
  -- the sample goes to the snapshot that wrote last, so nothing is forked
  obtain ⟨hstays, hseen, hwriter⟩ := hsound.isWriter_add (h.writer s hs) x
  have hwritten := hsound.paced_add hshow (h.writer s hs) (htape ▸ h.paced) (htape ▸ h.written_eq) x
  rw [htape] at hstays hseen hwritten
  have hsize' : (s.add l.pool x).2.size = (Retention.kept capacity (history ++ [x])).length := by
    rw [← Replay.samples_ofHistory hsound.sits.2.pos, (hsound.add x).follows.size_eq]
  have hends := h.ends.add x
  rw [add_of_some hs] at hends ⊢
  refine ⟨hends, hwritten.1, hwritten.2, ?_, ?_⟩
  · intro n hn
    obtain rfl : (s.add l.pool x).2 = n := by
      rw [List.length_append, List.length_singleton, ← hsize, Array.getElem?_push_size] at hn
      exact Option.some.inj hn
    exact hwriter
  · intro i o ho
    rw [Array.getElem?_push, hsize] at ho
    by_cases hi : i = history.length + 1
    · -- the new snapshot stands last
      rw [if_pos hi] at ho
      cases ho
      rw [hi, Nat.add_sub_cancel, List.take_left, List.take_of_length_le (by simp)]
      exact ⟨hstays, hsize', hseen.trans h.epoch_eq⟩
    · rw [if_neg hi] at ho
      have hlt := (Array.getElem?_eq_some_iff.mp ho).1
      rw [List.take_append_of_le_length (by omega), List.take_append_of_le_length (by omega)]
      exact h.link i o ho

theorem onSchedule_root (series : Series) (host : String) (hc : 1 ≤ capacity) :
    (root series host capacity).OnSchedule capacity [] := by
  refine ⟨endsIn_root series host hc, Tape.paced_blank hc, rfl, ?_, ?_⟩
  · rintro _ ⟨⟩
    rfl
  · intro i s hs
    obtain ⟨rfl, rfl⟩ := eq_of_getElem?_root hs
    refine ⟨rfl, ?_, ?_⟩
    · rw [List.take_nil, ← Replay.samples_ofHistory hc]
      rfl
    · rw [List.take_nil]
      show 0 = 0 / capacity - 1
      rw [Nat.zero_div]

theorem onSchedule_inTurn (hl : l.OnSchedule capacity []) (history : List Sample) :
    (l.grow (inTurn history)).OnSchedule capacity history := by
  induction history using List.reverseRecOn with
  | nil => exact hl
  | append_singleton history x ih =>
    rw [inTurn_concat, grow_concat]
    exact ih.add x

end Lineage

/-- **The schedule of a chain.**  After the samples of a history have been added in turn, the tape is
written and compacted as often as `Retention.writes` and `Retention.epochAfter` say, and the
snapshot of the first `i` samples is outdated exactly if the tape has been compacted since the one
before it was made. -/
theorem in_turn_outdated_iff (series : Series) (host : String) {capacity : Nat}
    (hc : 1 ≤ capacity) (ha : Snapshot.Addressable capacity) :
    ∃ l, Lineage.start series host capacity = .ok l ∧
      ∀ (history : List Sample) (i : Nat), i ≤ history.length →
        ∃ s, (l.grow (inTurn history)).snapshots[i]? = some s ∧
          s.size = (Retention.kept capacity (history.take i)).length ∧
          ((l.grow (inTurn history)).pool.tape s.span.tape).written =
            Retention.writes capacity history ∧
          ((l.grow (inTurn history)).pool.tape s.span.tape).epoch =
            Retention.epochAfter capacity (Retention.writes capacity history) ∧
          (s.isOutdated (l.grow (inTurn history)).pool = true ↔
            Retention.epochAfter capacity (Retention.writes capacity (history.take (i - 1))) <
              Retention.epochAfter capacity (Retention.writes capacity history)) := by
  refine ⟨Lineage.root series host capacity, Lineage.start_eq_ok series host hc ha, ?_⟩
  intro history i hi
  have hl := Lineage.onSchedule_inTurn (Lineage.onSchedule_root series host hc) history
  obtain ⟨s, hs⟩ : ∃ s, ((Lineage.root series host capacity).grow (inTurn history)).snapshots[i]? =
      some s := ⟨_, Array.getElem?_eq_getElem (by rw [hl.ends.1]; omega)⟩
  obtain ⟨htape, hsize, hseen⟩ := hl.link i s hs
  have hgrown := Retention.epochAfter_mono capacity
    (Retention.writes_take_le capacity history (i - 1))
  refine ⟨s, hs, hsize, htape ▸ hl.written_eq, htape ▸ hl.epoch_eq, ?_⟩
  rw [← Bool.not_eq_false, Snapshot.isOutdated, Span.isOutdated_eq_false_iff, htape, hseen,
    hl.epoch_eq]
  omega

/-- Three values, the first two of them given twice. -/
def paired : List Sample :=
  [⟨1, 5⟩, ⟨2, 5⟩, ⟨3, 6⟩, ⟨4, 6⟩, ⟨5, 7⟩]

/-- At capacity two, the fourth write is the first to compact the tape; it outdates the snapshot that
it makes along with all before it. -/
theorem in_turn_outdated_iff_paired :
    (1 ≤ 2 ∧ Snapshot.Addressable 2 ∧ 5 ≤ paired.length) ∧
      ∃ l s, Lineage.start (Series.ofName "load") "server" 2 = .ok l ∧
        (l.grow (inTurn paired)).snapshots[5]? = some s ∧
        ((l.grow (inTurn paired)).pool.tape s.span.tape).written = 4 ∧
        ((l.grow (inTurn paired)).pool.tape s.span.tape).epoch = 1 ∧
        s.isOutdated (l.grow (inTurn paired)).pool = true := by
  refine ⟨⟨by decide, by decide, by decide⟩, ?_⟩
  obtain ⟨l, hl, h⟩ :=
    @in_turn_outdated_iff (Series.ofName "load") "server" 2 (by decide) (by decide)
  obtain ⟨s, hs, -, hwritten, hepoch, houtdated⟩ := h paired 5 (by decide)
  exact ⟨l, s, hl, hs, hwritten.trans (by decide), hepoch.trans (by decide),
    houtdated.mpr (by decide)⟩

end MetricStore
