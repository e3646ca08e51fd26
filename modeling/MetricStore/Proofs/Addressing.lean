import Mathlib.Data.List.Induction
import MetricStore.Proofs.Pace

/-!
Where the samples of a tape stand.

Samples are numbered in the order in which they are written.  A push takes the slots back by a
`shift`, which is zero unless it compacts, and the number of the sample in the first slot grows by
just as much.  So slot `i` holds the sample with the number `capacity * epoch + i`
(`Tape.Numbered`), and a range that ends at the head is found by the same numbers after the push.
Main statement:

* `samples_keep_numbers`: writes, epoch, head and slots after any appends, what one more append
  makes of a range that ends at the head, and how many slots all of them have moved.

Design notes: a push does the same with and without a compaction once it is told by its shift, so
the case split is made in the laws of `Tape.shift` and `Tape.moved` alone.
-/

namespace MetricStore

namespace Tape

/-! ### How far a push takes the slots back -/

/-- How many slots a push gives up at the front. -/
def shift (t : Tape) : Nat := if t.isFull then t.head - t.keep else 0

/-- The samples that a push moves to the front. -/
def moved (t : Tape) : Array Sample :=
  if t.isFull then t.slots.extract (t.head - t.keep) t.head else #[]

variable {t : Tape} {start : Nat}

theorem relocate_eq (t : Tape) (start : Nat) : t.relocate start = start - t.shift := by
  rw [relocate, shift]
  split <;> rfl

theorem head_push_add_shift (t : Tape) (x : Sample) : (t.push x).head + t.shift = t.head + 1 := by
  rw [head_push, shift]
  cases hf : t.isFull with
  | false => rfl
  | true =>
    have hkeep := keep_le_head hf
    rw [if_pos rfl, if_pos rfl]
    omega

/-- All slots below the sample that was pushed hold what stood behind them by the shift. -/
theorem slot?_push_of_lt (hh : t.head ≤ t.slots.size) (x : Sample) {i : Nat}
    (hi : i + 1 < (t.push x).head) : (t.push x).slot? i = t.slot? (t.shift + i) := by
  rw [head_push] at hi
  cases hf : t.isFull with
  | false =>
    rw [hf, if_neg Bool.false_ne_true] at hi
    rw [push_of_not_full hf, slot?_write_of_ne (by omega), shift, hf, if_neg Bool.false_ne_true,
      Nat.zero_add]
  | true =>
    have hfull : t.head = t.slots.size := Nat.le_antisymm hh ((isFull_iff t).mp hf)
    rw [if_pos hf] at hi
    have hne : i ≠ t.compact.head := by
      show i ≠ t.keep
      omega
    rw [push_of_full hf, slot?_write_of_ne hne, slot?_compact hfull (by omega), shift, if_pos hf]

theorem size_moved_lt_head (hh : t.head ≤ t.slots.size) (x : Sample) :
    t.moved.size < (t.push x).head := by
  rw [head_push, moved]
  cases hf : t.isFull with
  | false => exact Nat.succ_pos t.head
  | true =>
    rw [if_pos rfl, if_pos rfl, Array.size_extract]
    omega

/-- Behind the slots that are moved, a push changes none but the one below the head. -/
theorem slot?_push_of_moved_le (hh : t.head ≤ t.slots.size) (x : Sample) {i : Nat}
    (hm : t.moved.size ≤ i) (hi : i + 1 ≠ (t.push x).head) :
    (t.push x).slot? i = t.slot? i := by
  rw [head_push] at hi
  rw [moved] at hm
  cases hf : t.isFull with
  | false =>
    rw [hf, if_neg Bool.false_ne_true] at hi
    rw [push_of_not_full hf, slot?_write_of_ne (by omega)]
  | true =>
    have hkeep := keep_le_head hf
    have hfull : t.head = t.slots.size := Nat.le_antisymm hh ((isFull_iff t).mp hf)
    rw [if_pos hf] at hi
    rw [if_pos hf, Array.size_extract] at hm
    have hne : i ≠ t.compact.head := by
      show i ≠ t.keep
      omega
    rw [push_of_full hf, slot?_write_of_ne hne, slot?_compact_of_le hfull (by omega)]

namespace Paced

variable {capacity : Nat}

theorem size_pos (h : t.Paced capacity) : 0 < t.slots.size := by
  have := h.pos
  rw [h.size_eq]
  omega

theorem keep_eq (h : t.Paced capacity) : t.keep = capacity - 1 := by
  have := h.size_eq
  rw [keep]
  omega

/-- A compaction takes the slots back by the capacity. -/
theorem shift_eq (h : t.Paced capacity) : t.shift = if t.isFull then capacity else 0 := by
  rw [shift, h.keep_eq]
  cases hf : t.isFull with
  | false => rfl
  | true =>
    have hfull := (isFull_iff t).mp hf
    have hhead := h.head_le
    have hsize := h.size_eq
    have hpos := h.pos
    rw [if_pos rfl, if_pos rfl]
    omega

/-- The number of the sample in the first slot grows by the shift. -/
theorem number_push (h : t.Paced capacity) (x : Sample) :
    capacity * (t.push x).epoch = capacity * t.epoch + t.shift := by
  rw [epoch_push, h.shift_eq]
  split
  · rw [Nat.mul_succ]
  · rfl

/-- A compaction moves one slot less than the capacity. -/
theorem size_moved (h : t.Paced capacity) :
    t.moved.size = if t.isFull then capacity - 1 else 0 := by
  rw [moved]
  cases hf : t.isFull with
  | false => rfl
  | true =>
    have hhead := h.head_le
    have hkeep := keep_le_head hf
    rw [if_pos rfl, if_pos rfl, Array.size_extract, ← h.keep_eq]
    omega

theorem slot?_push_of_lt_moved (h : t.Paced capacity) (x : Sample) {i : Nat}
    (hi : i < t.moved.size) : (t.push x).slot? i = t.slot? (capacity + i) := by
  have hlt := size_moved_lt_head h.head_le x
  have hf : t.isFull = true := by
    by_contra hf
    rw [h.size_moved, if_neg hf] at hi
    exact Nat.not_lt_zero i hi
  rw [slot?_push_of_lt h.head_le x (by omega), h.shift_eq, if_pos hf]

end Paced

/-! ### Numbers of samples -/

/-- Slot `i` holds the sample with the number `capacity * epoch + i`, below the head. -/
structure Numbered (capacity : Nat) (samples : List Sample) (t : Tape) : Prop where
  paced : t.Paced capacity
  written_eq : t.written = samples.length
  slot?_eq : ∀ i < t.head, t.slot? i = samples[capacity * t.epoch + i]?

theorem numbered_blank {capacity : Nat} (hc : 1 ≤ capacity) :
    (blank (2 * capacity - 1)).Numbered capacity [] :=
  ⟨paced_blank hc, rfl, fun i hi => absurd hi (Nat.not_lt_zero i)⟩

namespace Numbered

variable {capacity : Nat} {samples : List Sample}

theorem number_head (h : t.Numbered capacity samples) :
    capacity * t.epoch + t.head = samples.length := by
  rw [← h.written_eq, ← h.paced.balance, Nat.mul_comm]

theorem push (h : t.Numbered capacity samples) (x : Sample) :
    (t.push x).Numbered capacity (samples ++ [x]) := by
  have hpaced := h.paced.push x
  have hnumber := h.paced.number_push x
  have hhead := head_push_add_shift t x
  have hlen := h.number_head
  have hwritten : (t.push x).written = (samples ++ [x]).length := by
    rw [written_push, h.written_eq, List.length_append, List.length_singleton]
  refine ⟨hpaced, hwritten, ?_⟩
  intro i hi
  rcases Nat.lt_or_eq_of_le (Nat.succ_le_of_lt hi) with hlt | heq
  · -- moved by the shift, with the same number as before
    rw [slot?_push_of_lt h.paced.head_le x hlt, h.slot?_eq _ (by omega), hnumber, Nat.add_assoc,
      List.getElem?_append_left (by omega)]
  · -- the sample pushed has the next number
    have hnext : capacity * t.epoch + t.shift + i = samples.length := by omega
    rw [slot?_push h.paced.head_le h.paced.size_pos x heq, hnumber, hnext,
      List.getElem?_concat_length]

/-- What stands below the head has a number. -/
theorem exists_slot (h : t.Numbered capacity samples) {i : Nat} (hi : i < t.head) :
    ∃ x, samples[capacity * t.epoch + i]? = some x ∧ t.slot? i = some x := by
  have hlt : capacity * t.epoch + i < samples.length := by
    rw [← h.number_head]
    omega
  refine ⟨samples[capacity * t.epoch + i], List.getElem?_eq_getElem hlt, ?_⟩
  rw [h.slot?_eq i hi, List.getElem?_eq_getElem hlt]

end Numbered

theorem numbered_pushAll {capacity : Nat} (hc : 1 ≤ capacity) (samples : List Sample) :
    ((blank (2 * capacity - 1)).pushAll samples).Numbered capacity samples := by
  induction samples using List.reverseRecOn with
  | nil => exact numbered_blank hc
  | append_singleton samples x ih =>
    rw [pushAll_concat]
    exact ih.push x

/-! ### A range that ends at the head -/

/-- An append to the range from `start` to the head leaves the numbers of its samples as they are,
and the range with the new sample behind them. -/
def GrowsRange (capacity : Nat) (t : Tape) (start : Nat) (x : Sample) : Prop :=
  ∃ u start', t.append start x = (u, start') ∧
    capacity * u.epoch + start' = capacity * t.epoch + start ∧
    start' ≤ u.head ∧
    u.slice start' (u.head - start') = t.slice start (t.head - start) ++ [x]

theorem Paced.growsRange {capacity : Nat} (h : t.Paced capacity) (hs : start ≤ t.head)
    (hl : t.head - start ≤ capacity - 1) (x : Sample) : t.GrowsRange capacity start x := by
  have hend : start + (t.head - start) = t.head := Nat.add_sub_cancel' hs
  rw [← h.keep_eq] at hl
  have hstop := relocate_add_succ hend hl x
  have hhead := head_push_add_shift t x
  have hslice := slice_push_succ h.head_le h.size_pos hend hl x
  rw [relocate_eq] at hstop hslice
  refine ⟨t.push x, t.relocate start, rfl, ?_, ?_, ?_⟩
  · rw [h.number_push x, relocate_eq]
    omega
  · rw [relocate_eq]
    omega
  · rw [relocate_eq, ← hslice]
    congr 1
    omega

/-! ### How many slots are moved -/

/-- How many slots are moved while samples are written one after the other. -/
def movedAll (t : Tape) : List Sample → Nat
  | [] => 0
  | x :: rest => t.moved.size + (t.push x).movedAll rest

theorem movedAll_concat (t : Tape) (samples : List Sample) (x : Sample) :
    t.movedAll (samples ++ [x]) = t.movedAll samples + (t.pushAll samples).moved.size := by
  induction samples generalizing t with
  | nil => exact Nat.add_comm _ _
  | cons y rest ih =>
    rw [List.cons_append, movedAll, movedAll, ih, Nat.add_assoc]
    rfl

/-- Each epoch but the first has cost one slot less than the capacity. -/
theorem movedAll_eq {capacity : Nat} (hc : 1 ≤ capacity) (samples : List Sample) :
    (blank (2 * capacity - 1)).movedAll samples =
      (capacity - 1) * ((blank (2 * capacity - 1)).pushAll samples).epoch := by
  induction samples using List.reverseRecOn with
  | nil => rfl
  | append_singleton samples x ih =>
    rw [movedAll_concat, ih, pushAll_concat, epoch_push,
      (numbered_pushAll hc samples).paced.size_moved]
    split
    · rw [Nat.mul_succ]
    · rw [Nat.add_zero]

theorem movedAll_le_length {capacity : Nat} (hc : 1 ≤ capacity) (samples : List Sample) :
    (blank (2 * capacity - 1)).movedAll samples ≤ samples.length := by
  have hnumber := (numbered_pushAll hc samples).number_head
  rw [movedAll_eq hc]
  calc (capacity - 1) * ((blank (2 * capacity - 1)).pushAll samples).epoch
      ≤ capacity * ((blank (2 * capacity - 1)).pushAll samples).epoch :=
        Nat.mul_le_mul_right _ (Nat.sub_le capacity 1)
    _ ≤ samples.length := by omega

/-! ### Appends -/

/-- Appends samples one after the other, each to a range that starts where it says. -/
def appendAll (t : Tape) (appends : List (Nat × Sample)) : Tape :=
  appends.foldl (fun t (start, x) => (t.append start x).1) t

theorem appendAll_eq (t : Tape) (appends : List (Nat × Sample)) :
    t.appendAll appends = t.pushAll (appends.map Prod.snd) := by
  rw [appendAll, pushAll, List.foldl_map]
  rfl

/-- What an append moves: the first slots, as many as one less than the capacity, if it begins an
epoch, and none otherwise.  Of all others it changes the one that it writes. -/
structure MovesSlots (capacity : Nat) (t u : Tape) : Prop where
  size_eq : u.epoch = t.epoch + 1 ∧ t.moved.size = capacity - 1 ∨
    u.epoch = t.epoch ∧ t.moved.size = 0
  moved_eq : ∀ i < t.moved.size, u.slot? i = t.slot? (capacity + i)
  spared_eq : ∀ i, t.moved.size ≤ i → i + 1 ≠ u.head → u.slot? i = t.slot? i

theorem Paced.movesSlots {capacity : Nat} (h : t.Paced capacity) (x : Sample) :
    t.MovesSlots capacity (t.push x) := by
  refine ⟨?_, fun _ hi => h.slot?_push_of_lt_moved x hi,
    fun _ hm hi => slot?_push_of_moved_le h.head_le x hm hi⟩
  rw [epoch_push, h.size_moved]
  cases t.isFull with
  | false => exact .inr ⟨rfl, rfl⟩
  | true => exact .inl ⟨rfl, rfl⟩

/-- What is known of a tape to which these samples were appended. -/
structure KeepsNumbers (capacity : Nat) (samples : List Sample) (t : Tape) : Prop where
  written_eq : t.written = samples.length
  epoch_eq : t.epoch = Retention.epochAfter capacity samples.length
  number_head : capacity * t.epoch + t.head = samples.length
  slot_eq : ∀ i < t.head, ∃ x, samples[capacity * t.epoch + i]? = some x ∧ t.slot? i = some x
  /-- A range that a compaction would keep grows wherever it starts. -/
  grows : ∀ start ≤ t.head, t.head - start ≤ capacity - 1 → ∀ x, t.GrowsRange capacity start x
  moves : ∀ start x, t.MovesSlots capacity (t.append start x).1

theorem Numbered.keepsNumbers {capacity : Nat} {samples : List Sample}
    (h : t.Numbered capacity samples) : t.KeepsNumbers capacity samples :=
  ⟨h.written_eq, h.written_eq ▸ h.paced.epoch_eq, h.number_head, fun _ hi => h.exists_slot hi,
    fun _ hs hl => h.paced.growsRange hs hl, fun _ => h.paced.movesSlots⟩

end Tape

/-- **Samples keep their numbers.**  Whatever ranges the appends are made to: after any of them, the
number of writes, the epoch and the head follow from how many there were; slot `i` holds the sample
with the number `capacity * epoch + i`; one more append to a range that ends at the head finds its
samples by the same numbers; and no more slots have been moved than samples were appended. -/
theorem samples_keep_numbers {capacity : Nat} (hc : 1 ≤ capacity) (appends : List (Nat × Sample)) :
    ((Tape.blank (2 * capacity - 1)).appendAll appends).KeepsNumbers capacity
        (appends.map Prod.snd) ∧
      (Tape.blank (2 * capacity - 1)).movedAll (appends.map Prod.snd) ≤ appends.length := by
  rw [Tape.appendAll_eq]
  refine ⟨(Tape.numbered_pushAll hc _).keepsNumbers, ?_⟩
  exact Nat.le_trans (Tape.movedAll_le_length hc _) (Nat.le_of_eq (List.length_map _))

/-- Eight appends to ranges of all kinds, the one at the head included. -/
def eightAppends : List (Nat × Sample) :=
  [(0, ⟨1, 1⟩), (0, ⟨2, 2⟩), (2, ⟨3, 3⟩), (1, ⟨4, 4⟩), (3, ⟨5, 5⟩), (5, ⟨6, 6⟩), (1, ⟨7, 7⟩),
    (3, ⟨8, 8⟩)]

/-- At capacity three they fill the tape in its second epoch, after which the samples four to eight
stand there.  The next append moves the range of the latest two to the front. -/
theorem samples_keep_numbers_full :
    1 ≤ 3 ∧ ∃ t, (Tape.blank 5).appendAll eightAppends = t ∧
      t.written = 8 ∧ t.epoch = 1 ∧ t.head = 5 ∧ t.slot? 4 = some ⟨8, 8⟩ ∧
      t.moved.size = 2 ∧ (Tape.blank 5).movedAll (eightAppends.map Prod.snd) ≤ 8 ∧
      ∃ u, t.append 3 ⟨9, 9⟩ = (u, 0) ∧ u.epoch = 2 ∧
        u.slice 0 3 = [⟨7, 7⟩, ⟨8, 8⟩, ⟨9, 9⟩] := by
  obtain ⟨h, hmoved⟩ := @samples_keep_numbers 3 (by decide) eightAppends
  have hepoch := h.epoch_eq
  have hhead : ((Tape.blank 5).appendAll eightAppends).head = 5 := by decide
  obtain ⟨y, hy, hslot⟩ := h.slot_eq 4 (by decide)
  obtain ⟨u, start', hu, -, -, hslice⟩ := h.grows 3 (by decide) (by decide) ⟨9, 9⟩
  obtain ⟨hu2, hsize⟩ | ⟨hu1, -⟩ := (h.moves 3 ⟨9, 9⟩).size_eq
  · cases hu
    cases hy
    exact ⟨by decide, _, rfl, h.written_eq, hepoch, hhead, hslot, hsize, hmoved, _, rfl,
      hu2.trans (congrArg Nat.succ hepoch), hslice⟩
  · exact absurd hu1 (by decide)

end MetricStore
