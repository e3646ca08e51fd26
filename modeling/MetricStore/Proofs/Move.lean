import MetricStore.Proofs.Fit

/-!
How one span is made from another, and what that does to the rest.

Every new span is made by a `Move`: the latest sample is replaced, or a sample is committed behind
what is left of the range.  The commit is made in place or on a fork; what the new span holds is
the same (`Span.samples_move`).  Main statements:

* `Span.Sits.move`, `Span.Sits.after`: the new span and all others fit afterwards;
* `Span.Sits.live_before`: a span that is not recycled after a move was not before it, and holds
  the same samples.
-/

namespace MetricStore

/-- How a new span is made: the latest sample is replaced, or the oldest `dropped` slots of the
range are given up and `x` is committed behind the rest. -/
inductive Move where
  | replace
  | commit (dropped : Nat) (x : Sample)

namespace Move

/-- The range is long enough to give up so much, and short enough to be prolonged then. -/
def Allowed (capacity length : Nat) : Move → Prop
  | .replace => True
  | .commit dropped _ => dropped ≤ length ∧ length - dropped + 1 < capacity

/-- What is held after a move by which `latest` becomes the latest sample. -/
def apply (latest : Sample) (held : List Sample) : Move → List Sample
  | .replace => held.dropLast ++ [latest]
  | .commit dropped x => held.dropLast.drop dropped ++ [x, latest]

end Move

namespace Span

/-- The span made by a move. -/
def move (s : Span) (p : Pool) (latest : Sample) : Move → Pool × Span
  | .replace => (p, s.withLatest latest)
  | .commit dropped x => s.commit p (s.start + dropped) (s.length - dropped) x latest

/-! ### The two ways to commit -/

theorem mayAppend_iff {s : Span} {t : Tape} {stop : Nat} :
    s.mayAppend t stop = true ↔ t.epoch = s.epoch ∧ t.written = s.written ∧ t.head = stop := by
  simp [mayAppend, and_assoc]

/-- The span whose range on `t`, from `start` to the head, has grown by `x`. -/
def grown (t : Tape) (name seen start length : Nat) (x latest : Sample) : Span :=
  ⟨name, seen, (t.push x).epoch, (t.push x).written, t.relocate start, length + 1, some latest⟩

section

variable (t : Tape) (name seen start length : Nat) (x latest : Sample)

@[simp] theorem tape_grown : (grown t name seen start length x latest).tape = name := rfl

@[simp] theorem seen_grown : (grown t name seen start length x latest).seen = seen := rfl

@[simp] theorem epoch_grown :
    (grown t name seen start length x latest).epoch = (t.push x).epoch := rfl

@[simp] theorem start_grown :
    (grown t name seen start length x latest).start = t.relocate start := rfl

@[simp] theorem length_grown : (grown t name seen start length x latest).length = length + 1 := rfl

@[simp] theorem latest_grown : (grown t name seen start length x latest).latest = some latest := rfl

end

theorem commit_in_place {s : Span} {p : Pool} {start length : Nat}
    (h : s.mayAppend (p.tape s.tape) (start + length) = true) (x latest : Sample) :
    s.commit p start length x latest =
      (p.put s.tape ((p.tape s.tape).push x),
        grown (p.tape s.tape) s.tape s.epoch start length x latest) := by
  rw [commit, if_pos h]
  rfl

theorem commit_on_fork {s : Span} {p : Pool} {start length : Nat}
    (h : s.mayAppend (p.tape s.tape) (start + length) = false) (x latest : Sample) :
    s.commit p start length x latest =
      ((p.add (((p.tape s.tape).fork start length).push x)).1,
        grown ((p.tape s.tape).fork start length) p.tapes.size
          (((p.tape s.tape).fork start length).push x).epoch 0 length x latest) := by
  rw [commit, if_neg (by rw [h]; exact Bool.false_ne_true)]
  rfl

theorem fits_grown {capacity : Nat} {t : Tape} (hs : t.slots.size = 2 * capacity - 1)
    (hh : t.head ≤ t.slots.size) {start length : Nat} (he : start + length = t.head)
    (hl : length + 1 < capacity) {seen : Nat} {x : Sample} (hseen : seen ≤ (t.push x).epoch)
    (name : Nat) (latest : Sample) :
    (grown t name seen start length x latest).Fits capacity (t.push x) := by
  have hsize := Tape.size_push hh x
  have hkeep : length ≤ t.keep := by
    rw [Tape.keep]
    omega
  have hstop := Tape.relocate_add_succ he hkeep x
  have hroom := Tape.head_push_le (t := t) (by omega) x
  refine ⟨by omega, hsize.trans hs, hsize ▸ hroom, hseen, Nat.le_refl _, Nat.le_refl _, hl, ?_,
    fun _ => Nat.le_of_eq hstop, fun _ => ⟨rfl, hstop⟩, ?_⟩
  · rw [hsize]
    exact Nat.le_trans (Nat.le_of_eq hstop) hroom
  · intro h
    exact absurd h (Option.some_ne_none latest)

theorem latest_move (s : Span) (p : Pool) (latest : Sample) (m : Move) :
    (s.move p latest m).2.latest = some latest := by
  cases m with
  | replace => rfl
  | commit dropped x =>
    rw [move]
    cases ha : s.mayAppend (p.tape s.tape) (s.start + dropped + (s.length - dropped)) with
    | true => rw [commit_in_place ha, latest_grown]
    | false => rw [commit_on_fork ha, latest_grown]

/-! ### The three outcomes of a move -/

/-- What a move makes: the span with another latest sample on the tapes as they are, the range grown
in place, or a copy of the range grown on a new tape. -/
inductive Made (s : Span) (p : Pool) (latest : Sample) : Move → Pool × Span → Prop where
  | replaced : Made s p latest .replace (p, s.withLatest latest)
  | inPlace {dropped : Nat} {x : Sample}
      (may : s.mayAppend (p.tape s.tape) (s.start + dropped + (s.length - dropped)) = true) :
      Made s p latest (.commit dropped x)
        (p.put s.tape ((p.tape s.tape).push x),
          grown (p.tape s.tape) s.tape s.epoch (s.start + dropped) (s.length - dropped) x latest)
  | forked {dropped : Nat} {x : Sample} {t : Tape}
      (mayNot : s.mayAppend (p.tape s.tape) (s.start + dropped + (s.length - dropped)) = false)
      (fork : t = (p.tape s.tape).fork (s.start + dropped) (s.length - dropped)) :
      Made s p latest (.commit dropped x)
        ((p.add (t.push x)).1,
          grown t p.tapes.size (t.push x).epoch 0 (s.length - dropped) x latest)

theorem made_move (s : Span) (p : Pool) (latest : Sample) (m : Move) :
    s.Made p latest m (s.move p latest m) := by
  cases m with
  | replace => exact .replaced
  | commit dropped x =>
    rw [move]
    cases ha : s.mayAppend (p.tape s.tape) (s.start + dropped + (s.length - dropped)) with
    | true =>
      rw [commit_in_place ha]
      exact .inPlace ha
    | false =>
      rw [commit_on_fork ha]
      exact .forked ha rfl

/-! ### The tapes after a move -/

theorem tape_add_size (p : Pool) (t : Tape) : (p.add t).1.tape p.tapes.size = t :=
  Pool.tape_add_self p t

/-- A move leaves the pool alone, pushes to the tape of the span, or adds a tape, which the new span
sits on. -/
theorem pool_move (s : Span) (p : Pool) (latest : Sample) (m : Move) :
    (s.move p latest m).2.tape = s.tape ∧
        ((s.move p latest m).1 = p ∨
          ∃ x, (s.move p latest m).1 = p.put s.tape ((p.tape s.tape).push x)) ∨
      (s.move p latest m).2.tape = p.tapes.size ∧
        ∃ t, (s.move p latest m).1 = (p.add t).1 := by
  cases m with
  | replace => exact .inl ⟨rfl, .inl rfl⟩
  | commit dropped x =>
    rw [move]
    cases hm : s.mayAppend (p.tape s.tape) (s.start + dropped + (s.length - dropped)) with
    | true =>
      rw [commit_in_place hm]
      exact .inl ⟨tape_grown .., .inr ⟨x, rfl⟩⟩
    | false =>
      rw [commit_on_fork hm]
      exact .inr ⟨tape_grown .., _, rfl⟩

/-- A move leaves a tape alone or pushes one sample. -/
theorem tape_move (s : Span) (p : Pool) (latest : Sample) (m : Move) {name : Nat}
    (hn : name < p.tapes.size) :
    name < (s.move p latest m).1.tapes.size ∧
      ((s.move p latest m).1.tape name = p.tape name ∨
        ∃ x, (s.move p latest m).1.tape name = (p.tape name).push x) := by
  obtain ⟨-, hp | ⟨x, hp⟩⟩ | ⟨-, t, hp⟩ := pool_move s p latest m
  · rw [hp]
    exact ⟨hn, .inl rfl⟩
  · -- only the tape of the span itself is written to
    rw [hp]
    refine ⟨by simpa [Pool.put] using hn, ?_⟩
    by_cases he : s.tape = name
    · subst he
      exact .inr ⟨x, Pool.tape_put_self p hn _⟩
    · exact .inl (Pool.tape_put_other p he _)
  · rw [hp]
    refine ⟨?_, .inl (Pool.tape_add_other p hn _)⟩
    rw [Pool.add, Array.size_push]
    exact Nat.lt_succ_of_lt hn

/-- A move writes to no tape but that of the span. -/
theorem tape_move_other (s : Span) (p : Pool) (latest : Sample) (m : Move) {name : Nat}
    (hn : name < p.tapes.size) (hne : s.tape ≠ name) :
    (s.move p latest m).1.tape name = p.tape name := by
  obtain ⟨-, hp | ⟨x, hp⟩⟩ | ⟨-, t, hp⟩ := pool_move s p latest m
  · rw [hp]
  · rw [hp, Pool.tape_put_other p hne]
  · rw [hp, Pool.tape_add_other p hn]

/-- The new span stays on the tape of the old one, or has a new tape of its own. -/
theorem tape_of_move (s : Span) (p : Pool) (latest : Sample) (m : Move) :
    (s.move p latest m).2.tape = s.tape ∧
        (s.move p latest m).1.tapes.size = p.tapes.size ∨
      (s.move p latest m).2.tape = p.tapes.size ∧
        (s.move p latest m).1.tapes.size = p.tapes.size + 1 := by
  obtain ⟨ht, hp | ⟨x, hp⟩⟩ | ⟨ht, t, hp⟩ := pool_move s p latest m
  · exact .inl ⟨ht, by rw [hp]⟩
  · exact .inl ⟨ht, by rw [hp, Pool.put, Array.size_setIfInBounds]⟩
  · exact .inr ⟨ht, by rw [hp, Pool.add, Array.size_push]⟩

variable {capacity : Nat} {p : Pool} {s o : Span}

theorem Sits.after (ho : o.Sits capacity p) (s : Span) (latest : Sample) (m : Move) :
    o.Sits capacity (s.move p latest m).1 := by
  obtain ⟨hn, ht | ⟨x, ht⟩⟩ := tape_move s p latest m ho.1
  · exact ⟨hn, ht ▸ ho.2⟩
  · exact ⟨hn, ht ▸ ho.2.push x⟩

/-- A span that is not recycled after a move was not before, and holds what it held. -/
theorem Sits.live_before (ho : o.Sits capacity p) {s : Span} {latest : Sample} {m : Move}
    (hl : o.isRecycled (s.move p latest m).1 = false) :
    o.isRecycled p = false ∧ o.samples (s.move p latest m).1 = o.samples p := by
  rw [isRecycled_eq_false_iff] at hl ⊢
  obtain ⟨-, ht | ⟨x, ht⟩⟩ := tape_move s p latest m ho.1
  · rw [ht] at hl
    exact ⟨hl, by rw [samples, samples, ht]⟩
  · -- the push did not compact, and the range lies below the head
    rw [ht] at hl
    exact ⟨(ho.2.live_of_push hl).2, by rw [samples, samples, ht, ho.2.slice_push hl]⟩

/-! ### The span that a move makes -/

theorem Sits.move (h : s.Sits capacity p) (latest : Sample) {m : Move}
    (hm : m.Allowed capacity s.length) :
    (s.move p latest m).2.Sits capacity (s.move p latest m).1 := by
  obtain ⟨hn, hf⟩ := h
  cases m with
  | replace =>
    refine ⟨hn, hf.pos, hf.size_eq, hf.head_le, Nat.le_refl _, hf.epoch_le, hf.written_le,
      hf.length_lt, hf.stop_le, hf.live_le, hf.writer, ?_⟩
    intro h
    exact absurd h (Option.some_ne_none latest)
  | commit dropped x =>
    obtain ⟨hd, hroom⟩ := hm
    rw [Span.move]
    cases ha : s.mayAppend (p.tape s.tape) (s.start + dropped + (s.length - dropped)) with
    | true =>
      -- in place, what is left of the range ends at the head
      obtain ⟨-, -, hhead⟩ := mayAppend_iff.mp ha
      rw [commit_in_place ha]
      refine ⟨by simpa [Pool.put, grown] using hn, ?_⟩
      rw [tape_grown, Pool.tape_put_self p hn]
      exact fits_grown hf.size_eq hf.head_le hhead.symm hroom (hf.push x).epoch_le s.tape latest
    | false =>
      -- on a fork it is all that was written
      have hstop := hf.stop_le
      have hle : s.start + dropped + (s.length - dropped) ≤ (p.tape s.tape).slots.size := by omega
      rw [commit_on_fork ha]
      refine ⟨by simp [Pool.add, grown], ?_⟩
      have hhead := Tape.head_fork hle
      rw [tape_grown, tape_add_size]
      exact fits_grown (Tape.size_fork.trans hf.size_eq) (by rw [hhead, Tape.size_fork]; omega)
        (by rw [hhead, Nat.zero_add]) hroom (Nat.le_refl _) p.tapes.size latest

theorem body_move_commit (h : s.Sits capacity p) {latest x : Sample} {dropped : Nat}
    (hm : (Move.commit dropped x).Allowed capacity s.length) :
    (s.move p latest (.commit dropped x)).2.body (s.move p latest (.commit dropped x)).1 =
      (s.body p).drop dropped ++ [x] := by
  obtain ⟨hn, hf⟩ := h
  have hkeep := hf.length_le_keep
  have hleft : (s.body p).drop dropped =
      (p.tape s.tape).slice (s.start + dropped) (s.length - dropped) := Tape.drop_slice _ _ _ _
  rw [hleft, body, Span.move]
  cases ha : s.mayAppend (p.tape s.tape) (s.start + dropped + (s.length - dropped)) with
  | true =>
    obtain ⟨-, -, hhead⟩ := mayAppend_iff.mp ha
    rw [commit_in_place ha, tape_grown, start_grown, length_grown, Pool.tape_put_self p hn]
    exact Tape.slice_push_succ hf.head_le hf.size_pos hhead.symm (by omega) x
  | false =>
    have hstop := hf.stop_le
    have hd := hm.1
    rw [commit_on_fork ha, tape_grown, start_grown, length_grown, tape_add_size]
    exact Tape.slice_push_fork (by omega) (by omega) hf.size_pos x

/-- **What a move makes.**  The new span holds what the move makes of what the old one holds at
that moment, be it its own or not. -/
theorem samples_move (h : s.Sits capacity p) (latest : Sample) {m : Move}
    (hm : m.Allowed capacity s.length) :
    (s.move p latest m).2.samples (s.move p latest m).1 = m.apply latest (s.samples p) := by
  cases m with
  | replace =>
    rw [Move.apply, h.dropLast_samples]
    rfl
  | commit dropped x =>
    rw [samples_eq, body_move_commit h hm, latest_move, Move.apply, h.dropLast_samples,
      List.append_assoc]
    rfl

theorem isRecycled_move_commit (h : s.Sits capacity p) (latest x : Sample) (dropped : Nat) :
    (s.move p latest (.commit dropped x)).2.isRecycled
      (s.move p latest (.commit dropped x)).1 = false := by
  rw [isRecycled_eq_false_iff, Span.move]
  cases ha : s.mayAppend (p.tape s.tape) (s.start + dropped + (s.length - dropped)) with
  | true =>
    rw [commit_in_place ha, tape_grown, epoch_grown, Pool.tape_put_self p h.1]
  | false =>
    rw [commit_on_fork ha, tape_grown, epoch_grown, tape_add_size]

/-- What is made of a recycled span is outdated only if it is recycled itself. -/
theorem seen_move_of_recycled (hr : s.isRecycled p = true) (latest : Sample) (m : Move) :
    (s.move p latest m).2.seen = (s.move p latest m).2.epoch := by
  cases m with
  | replace => rfl
  | commit dropped x =>
    have ha : s.mayAppend (p.tape s.tape) (s.start + dropped + (s.length - dropped)) = false := by
      rw [isRecycled, bne_iff_ne] at hr
      rw [mayAppend, beq_eq_false_iff_ne.mpr hr]
      rfl
    rw [Span.move, commit_on_fork ha, seen_grown, epoch_grown]

end Span

end MetricStore
