import MetricStore.Replay
import MetricStore.Snapshot
import MetricStore.Proofs.Move

/-!
What an addition to a snapshot makes.

The new snapshot holds what the rules of retention leave of the samples that the old one shows at
that moment (`Snapshot.samples_add`), whatever the tape has gone through.  Its run, statistics and
size do not depend on the tape at all: they are those of a replay of its own history
(`Snapshot.Follows.add`), and so are its samples if the old one showed those of its history.
-/

namespace MetricStore

namespace Span

/-! ### Pushes, merges and collapses are moves -/

/-- The move of a push. -/
def pushMove (s : Span) (capacity : Nat) : Move :=
  match s.latest with
  | none => .replace
  | some last =>
    if s.size < capacity then .commit 0 last
    else if s.length = 0 then .replace
    else .commit 1 last

/-- The move of a collapse to `first`. -/
def collapseMove (s : Span) (p : Pool) (first : Sample) : Move :=
  if s.length = 1 ∧ s.latest.isSome ∧ s.sample? p 0 = some first then .replace
  else .commit s.length first

theorem push_eq_move (s : Span) (p : Pool) (capacity : Nat) (x : Sample) :
    s.push p capacity x = s.move p x (s.pushMove capacity) := by
  unfold push pushMove
  cases s.latest with
  | none => rfl
  | some last =>
    simp only
    split
    · rfl
    · split <;> rfl

theorem collapse_eq_move (s : Span) (p : Pool) (first x : Sample) :
    s.collapse p first x = s.move p x (s.collapseMove p first) := by
  unfold collapse collapseMove
  split
  · rfl
  · rw [move, Nat.sub_self]

variable {capacity : Nat} {p : Pool} {s : Span}

theorem size_of_some {last : Sample} (h : s.latest = some last) : s.size = s.length + 1 := by
  rw [size, h]
  rfl

theorem samples_of_some {last : Sample} (h : s.latest = some last) :
    s.samples p = s.body p ++ [last] := by
  rw [samples_eq, h]
  rfl

theorem Sits.samples_of_none (hs : s.Sits capacity p) (h : s.latest = none) : s.samples p = [] := by
  rw [← List.length_eq_zero_iff, hs.length_samples, size, h, hs.2.length_of_none h]
  rfl

theorem Sits.pushMove_allowed (h : s.Sits capacity p) :
    (s.pushMove capacity).Allowed capacity s.length := by
  have hlt := h.2.length_lt
  unfold pushMove
  cases hl : s.latest with
  | none => trivial
  | some last =>
    have hsize := size_of_some hl
    simp only
    split
    · exact ⟨Nat.zero_le _, by omega⟩
    · split
      · trivial
      · exact ⟨by omega, by omega⟩

theorem collapseMove_allowed (hc : 2 ≤ capacity) (p : Pool) (first : Sample) :
    (s.collapseMove p first).Allowed capacity s.length := by
  unfold collapseMove
  split
  · trivial
  · exact ⟨Nat.le_refl _, by omega⟩

/-- A push does to the samples shown what the rules of retention say. -/
theorem Sits.apply_pushMove (h : s.Sits capacity p) (since : Int64) (x : Sample) :
    (s.pushMove capacity).apply x (s.samples p) =
      Retention.apply capacity since x (s.samples p) .push := by
  have hpos := h.2.pos
  rw [Retention.apply, h.length_samples, pushMove]
  cases hl : s.latest with
  | none =>
    rw [h.samples_of_none hl]
    simp [Move.apply]
  | some last =>
    have hsize := size_of_some hl
    simp only
    split
    · rw [Move.apply, h.dropLast_samples, samples_of_some hl, List.drop_zero, List.append_assoc]
      rfl
    · split
      · next h₀ =>
        have hnil : s.body p = [] := by rw [← List.length_eq_zero_iff, h.length_body, h₀]
        rw [Move.apply, h.dropLast_samples, samples_of_some hl, hnil]
        rfl
      · next h₀ =>
        have hlen := h.length_body
        rw [Move.apply, h.dropLast_samples, samples_of_some hl,
          List.drop_append_of_le_length (by omega), List.append_assoc]
        rfl

/-- A collapse leaves the first sample of the run and the latest one. -/
theorem Sits.apply_collapseMove (h : s.Sits capacity p) (first x : Sample) :
    (s.collapseMove p first).apply x (s.samples p) = [first, x] := by
  unfold collapseMove
  split
  · next hc =>
    obtain ⟨hlen, -, hfirst⟩ := hc
    have hbody : s.body p = [first] := by
      refine List.ext_getElem? ?_
      intro i
      cases i with
      | zero =>
        rw [sample?, hlen, if_pos Nat.one_pos] at hfirst
        rw [body, Tape.getElem?_slice, hlen, if_pos Nat.one_pos, hfirst]
        rfl
      | succ i =>
        rw [List.getElem?_eq_none (by rw [h.length_body, hlen]; omega)]
        rfl
    rw [Move.apply, h.dropLast_samples, hbody]
    rfl
  · rw [Move.apply, h.dropLast_samples, List.drop_of_length_le (Nat.le_of_eq h.length_body)]
    rfl

end Span

namespace Snapshot

/-! ### An addition is a move -/

/-- The run that a sample ends in. -/
def nextRun (s : Snapshot) (x : Sample) : Run := s.run.observe x.time (s.isChange x)

/-- What becomes of a sample. -/
def action (s : Snapshot) (x : Sample) : Retention.Action :=
  Retention.action s.capacity (s.nextRun x) (s.isChange x)

/-- The move that an addition makes. -/
def moveFor (p : Pool) (s : Snapshot) (x : Sample) : Move :=
  match s.action x with
  | .push => s.span.pushMove s.capacity
  | .merge => .replace
  | .collapse => s.span.collapseMove p ⟨(s.nextRun x).since, x.value⟩

theorem add_eq (p : Pool) (s : Snapshot) (x : Sample) :
    s.add p x = ((s.span.move p x (s.moveFor p x)).1,
      { s with
        span := (s.span.move p x (s.moveFor p x)).2
        run := s.nextRun x
        summary := s.summary.observe x.value (s.isChange x) }) := by
  have hspan : (match s.action x with
      | .push => s.span.push p s.capacity x
      | .merge => s.span.merge p x
      | .collapse => s.span.collapse p ⟨(s.nextRun x).since, x.value⟩ x) =
      s.span.move p x (s.moveFor p x) := by
    unfold moveFor
    cases s.action x with
    | push => exact Span.push_eq_move s.span p s.capacity x
    | merge => rfl
    | collapse => exact Span.collapse_eq_move s.span p _ x
  rw [← hspan]
  rfl

theorem made_add (p : Pool) (s : Snapshot) (x : Sample) :
    s.span.Made p x (s.moveFor p x) ((s.add p x).1, (s.add p x).2.span) := by
  rw [add_eq]
  exact Span.made_move s.span p x (s.moveFor p x)

variable {p : Pool} {s : Snapshot}

/-- The next snapshot is on the same tape, or on a new one. -/
theorem tape_of_add (p : Pool) (s : Snapshot) (x : Sample) :
    (s.add p x).2.span.tape = s.span.tape ∧ (s.add p x).1.tapes.size = p.tapes.size ∨
      (s.add p x).2.span.tape = p.tapes.size ∧
        (s.add p x).1.tapes.size = p.tapes.size + 1 := by
  rw [add_eq]
  exact Span.tape_of_move s.span p x (s.moveFor p x)

theorem size_le_add (p : Pool) (s : Snapshot) (x : Sample) :
    p.tapes.size ≤ (s.add p x).1.tapes.size := by
  have hsize := s.tape_of_add p x
  omega

/-- An addition writes to no tape but that of the snapshot. -/
theorem tape_add_other (x : Sample) {name : Nat} (hn : name < p.tapes.size)
    (hne : s.span.tape ≠ name) : (s.add p x).1.tape name = p.tape name := by
  rw [add_eq]
  exact Span.tape_move_other s.span p x (s.moveFor p x) hn hne

theorem moveFor_allowed (h : s.span.Sits s.capacity p) (x : Sample) :
    (s.moveFor p x).Allowed s.capacity s.span.length := by
  unfold moveFor
  cases ha : s.action x with
  | push => exact h.pushMove_allowed
  | merge => trivial
  | collapse =>
    refine Span.collapseMove_allowed ?_ p _
    -- a collapse is chosen only where there is room for two samples
    unfold action Retention.action at ha
    split at ha
    · cases ha
    · split at ha
      · next hc => exact hc.2
      · cases ha

theorem sits_add (h : s.span.Sits s.capacity p) (x : Sample) :
    (s.add p x).2.span.Sits s.capacity (s.add p x).1 := by
  rw [add_eq]
  exact h.move x (moveFor_allowed h x)

/-- **One addition.**  The new snapshot shows what the rules of retention leave of the samples that
the old one shows, its own or not. -/
theorem samples_add (h : s.span.Sits s.capacity p) (x : Sample) :
    (s.add p x).2.samples (s.add p x).1 =
      Retention.apply s.capacity (s.nextRun x).since x (s.samples p) (s.action x) := by
  rw [add_eq, samples, Span.samples_move h x (moveFor_allowed h x), moveFor]
  cases s.action x with
  | push => exact h.apply_pushMove _ x
  | merge => rfl
  | collapse => exact h.apply_collapseMove _ x

/-! ### Following a replay -/

/-- What a snapshot knows without its tape is what a replay has: the run, the statistics, the
latest sample and how many samples are kept. -/
structure Follows (r : Replay) (s : Snapshot) : Prop where
  run_eq : s.run = r.run
  summary_eq : s.summary = r.summary
  latest_eq : s.span.latest = r.samples.getLast?
  size_eq : s.size = r.samples.length

theorem isChange_eq {r : Replay} (h : s.Follows r) (x : Sample) : s.isChange x = r.isChange x := by
  have hlatest := h.latest_eq
  cases hr : r.samples.getLast? with
  | none => simp only [isChange, Replay.isChange, hlatest, hr]
  | some last => simp only [isChange, Replay.isChange, hlatest, hr]

theorem replay_add_eq {r : Replay} (h : s.Follows r) (x : Sample) :
    r.add s.capacity x =
      { samples := Retention.apply s.capacity (s.nextRun x).since x r.samples (s.action x)
        run := s.nextRun x
        summary := s.summary.observe x.value (s.isChange x) } := by
  rw [action, nextRun, isChange_eq h, h.run_eq, h.summary_eq]
  rfl

/-- The new snapshot follows the next replay, whatever its tape holds. -/
theorem Follows.add {r : Replay} (h : s.Follows r) (hs : s.span.Sits s.capacity p) (x : Sample) :
    (s.add p x).2.Follows (r.add s.capacity x) := by
  have hsits := sits_add hs x
  have hshown := samples_add hs x
  have hlen : (s.samples p).length = r.samples.length := by
    rw [← h.size_eq]
    exact hs.length_samples
  rw [replay_add_eq h]
  refine ⟨by rw [add_eq], by rw [add_eq], ?_, ?_⟩
  · rw [Retention.getLast?_apply, add_eq]
    exact Span.latest_move _ _ x _
  · show (s.add p x).2.span.size = _
    rw [← hsits.length_samples]
    show ((s.add p x).2.samples (s.add p x).1).length = _
    rw [hshown]
    exact Retention.length_apply_congr hlen _ _ _ _

/-- A snapshot that shows its replay is followed by one that shows the next. -/
theorem shows_add {r : Replay} (h : s.Follows r) (hs : s.span.Sits s.capacity p)
    (hshow : s.samples p = r.samples) (x : Sample) :
    (s.add p x).2.samples (s.add p x).1 = (r.add s.capacity x).samples := by
  rw [samples_add hs, replay_add_eq h, hshow]

/-- A snapshot of one sample shows it, whatever its tape holds. -/
theorem shows_of_length_eq_zero {r : Replay} (h : s.Follows r) (hs : s.span.Sits s.capacity p)
    (hz : s.span.length = 0) : s.samples p = r.samples := by
  have hbody : s.span.body p = [] := by rw [← List.length_eq_zero_iff, hs.length_body, hz]
  have hsize := h.size_eq
  have hlatest := h.latest_eq
  rw [samples, Span.samples_eq, hbody, List.nil_append]
  cases hl : s.span.latest with
  | none =>
    rw [hl] at hlatest
    exact (List.getLast?_eq_none_iff.mp hlatest.symm).symm
  | some last =>
    rw [size, Span.size_of_some hl, hz] at hsize
    obtain ⟨y, hy⟩ := List.length_eq_one_iff.mp hsize.symm
    rw [hl, hy] at hlatest
    rw [hy, Option.toList_some, Option.some_inj.mp hlatest]
    rfl

/-! ### When the new snapshot is recycled -/

/-- The snapshot that follows one that is not recycled is not recycled. -/
theorem isRecycled_add (h : s.span.Sits s.capacity p) (hl : s.span.isRecycled p = false)
    (x : Sample) : (s.add p x).2.span.isRecycled (s.add p x).1 = false := by
  rw [add_eq]
  show (s.span.move p x (s.moveFor p x)).2.isRecycled (s.span.move p x (s.moveFor p x)).1 = false
  cases s.moveFor p x with
  | replace => exact hl
  | commit dropped y => exact Span.isRecycled_move_commit h x y dropped

end Snapshot

end MetricStore
