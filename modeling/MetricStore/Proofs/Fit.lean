import MetricStore.Span
import MetricStore.Proofs.Slots

/-!
How a span lies on its tape.

`Span.Fits` says of a span that its range is within the slots and short enough for the capacity,
and that it lies below the head as long as the tape was not compacted since.  `Span.Sits` says it
of a span in a pool.  Main statements:

* `Fits.push`: a push, with or without compaction, leaves every span of the tape fitting;
* `Fits.slice_push`: a span whose slots have not been moved holds after a push what it held;
* `Sits.sample?_eq`: the sample at a position is the one that stands there among the samples.

Design notes: the number of writes that a span has noted tells whether its range still ends at the
head (`Fits.writer`), and a noted epoch is never ahead of the tape.
-/

namespace MetricStore

namespace Span

/-- How a span lies on its tape, for a capacity. -/
structure Fits (capacity : Nat) (t : Tape) (s : Span) : Prop where
  pos : 0 < capacity
  size_eq : t.slots.size = 2 * capacity - 1
  head_le : t.head ≤ t.slots.size
  seen_le : s.seen ≤ s.epoch
  epoch_le : s.epoch ≤ t.epoch
  written_le : s.written ≤ t.written
  length_lt : s.length < capacity
  stop_le : s.start + s.length ≤ t.slots.size
  /-- As long as nothing was moved, the range was written. -/
  live_le : s.epoch = t.epoch → s.start + s.length ≤ t.head
  /-- As long as nothing was written, the range ends at the head. -/
  writer : s.written = t.written → s.epoch = t.epoch ∧ s.start + s.length = t.head
  length_of_none : s.latest = none → s.length = 0

/-- The slots of the range, oldest first. -/
def body (s : Span) (p : Pool) : List Sample := (p.tape s.tape).slice s.start s.length

theorem samples_eq (s : Span) (p : Pool) : s.samples p = s.body p ++ s.latest.toList := rfl

theorem isRecycled_eq_false_iff {s : Span} {p : Pool} :
    s.isRecycled p = false ↔ s.epoch = (p.tape s.tape).epoch := by
  rw [isRecycled, bne_eq_false_iff_eq]
  exact eq_comm

theorem isOutdated_eq_false_iff {s : Span} {p : Pool} :
    s.isOutdated p = false ↔ s.seen = (p.tape s.tape).epoch := by
  rw [isOutdated, bne_eq_false_iff_eq]
  exact eq_comm

namespace Fits

variable {capacity : Nat} {t : Tape} {s : Span}

theorem size_pos (h : s.Fits capacity t) : 0 < t.slots.size := by
  have := h.pos
  rw [h.size_eq]
  omega

theorem length_le_keep (h : s.Fits capacity t) : s.length ≤ t.keep := by
  have := h.length_lt
  rw [Tape.keep, h.size_eq]
  omega

/-! ### A push leaves a span where it is -/

theorem push (h : s.Fits capacity t) (x : Sample) : s.Fits capacity (t.push x) := by
  have hsize := Tape.size_push h.head_le x
  have hepoch := Tape.epoch_push t x
  refine ⟨h.pos, hsize.trans h.size_eq, hsize ▸ Tape.head_push_le h.size_pos x, h.seen_le, ?_, ?_,
    h.length_lt, hsize ▸ h.stop_le, ?_, ?_, h.length_of_none⟩
  · have := h.epoch_le
    rw [hepoch]
    split <;> omega
  · have := h.written_le
    rw [Tape.written_push]
    omega
  · -- in the same epoch the head has only gone forward
    intro he
    have hle := h.epoch_le
    cases hf : t.isFull with
    | true =>
      rw [hepoch, if_pos hf] at he
      omega
    | false =>
      rw [hepoch, hf, if_neg Bool.false_ne_true] at he
      have := h.live_le he
      rw [Tape.head_push, hf, if_neg Bool.false_ne_true]
      omega
  · -- a push is a write, so no span has noted as many
    intro hw
    have := h.written_le
    rw [Tape.written_push] at hw
    omega

theorem live_of_push (h : s.Fits capacity t) {x : Sample} (he : s.epoch = (t.push x).epoch) :
    t.isFull = false ∧ s.epoch = t.epoch := by
  have hle := h.epoch_le
  rw [Tape.epoch_push] at he
  cases hf : t.isFull with
  | true =>
    rw [if_pos hf] at he
    omega
  | false =>
    rw [hf, if_neg Bool.false_ne_true] at he
    exact ⟨rfl, he⟩

theorem slice_push (h : s.Fits capacity t) {x : Sample} (he : s.epoch = (t.push x).epoch) :
    (t.push x).slice s.start s.length = t.slice s.start s.length := by
  obtain ⟨hf, he⟩ := h.live_of_push he
  exact Tape.slice_push_of_le hf (h.live_le he) x

end Fits

/-! ### Spans in a pool -/

/-- A span has a tape, and fits it. -/
def Sits (capacity : Nat) (p : Pool) (s : Span) : Prop :=
  s.tape < p.tapes.size ∧ s.Fits capacity (p.tape s.tape)

theorem Sits.live_of_current {capacity : Nat} {p : Pool} {s : Span} (h : s.Sits capacity p)
    (ho : s.isOutdated p = false) : s.isRecycled p = false := by
  have hseen := h.2.seen_le
  have hepoch := h.2.epoch_le
  rw [isOutdated_eq_false_iff] at ho
  rw [isRecycled_eq_false_iff]
  omega

theorem Sits.length_body {capacity : Nat} {p : Pool} {s : Span} (h : s.Sits capacity p) :
    (s.body p).length = s.length := Tape.length_slice h.2.stop_le

theorem Sits.length_samples {capacity : Nat} {p : Pool} {s : Span} (h : s.Sits capacity p) :
    (s.samples p).length = s.size := by
  rw [samples_eq, List.length_append, h.length_body, size]
  cases s.latest <;> rfl

theorem Sits.size_le {capacity : Nat} {p : Pool} {s : Span} (h : s.Sits capacity p) :
    s.size ≤ capacity := by
  have := h.2.length_lt
  rw [size]
  split <;> omega

theorem Sits.dropLast_samples {capacity : Nat} {p : Pool} {s : Span} (h : s.Sits capacity p) :
    (s.samples p).dropLast = s.body p := by
  rw [samples_eq]
  cases hl : s.latest with
  | none =>
    have hnil : s.body p = [] := by
      rw [← List.length_eq_zero_iff, h.length_body, h.2.length_of_none hl]
    rw [hnil]
    rfl
  | some x => exact List.dropLast_concat

/-- A position holds what stands there among the samples. -/
theorem Sits.sample?_eq {capacity : Nat} {p : Pool} {s : Span} (h : s.Sits capacity p) (i : Nat) :
    s.sample? p i = (s.samples p)[i]? := by
  rw [sample?, samples_eq]
  rcases Nat.lt_trichotomy i s.length with hi | rfl | hi
  · rw [if_pos hi, List.getElem?_append_left (by rwa [h.length_body]), body, Tape.getElem?_slice,
      if_pos hi]
  · rw [if_neg (by omega), if_pos rfl, List.getElem?_append_right (Nat.le_of_eq h.length_body),
      h.length_body, Nat.sub_self]
    cases s.latest <;> rfl
  · rw [if_neg (by omega), if_neg (by omega), List.getElem?_eq_none]
    rw [List.length_append, h.length_body]
    cases s.latest <;> simp <;> omega

end Span

end MetricStore
