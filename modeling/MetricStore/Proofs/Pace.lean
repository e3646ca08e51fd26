import MetricStore.Proofs.Slots
import MetricStore.Retention.Runs

/-!
How often a tape is compacted.

A compaction takes the head back by as many slots as the capacity, so writes, compactions and the
place of the head are in balance (`Tape.Paced`), from the blank tape on and over every push.  Main
statement:

* `Tape.Paced.epoch_eq`: the epoch is the one that `Retention.epochAfter` gives for the writes.
-/

namespace MetricStore

theorem Retention.epochAfter_mono (capacity : Nat) {m n : Nat} (h : m ≤ n) :
    epochAfter capacity m ≤ epochAfter capacity n :=
  Nat.sub_le_sub_right (Nat.div_le_div_right h) 1

namespace Tape

/-- The head stands where so many writes have put it, less what the compactions took back. -/
structure Paced (capacity : Nat) (t : Tape) : Prop where
  pos : 1 ≤ capacity
  size_eq : t.slots.size = 2 * capacity - 1
  head_le : t.head ≤ t.slots.size
  balance : t.epoch * capacity + t.head = t.written
  /-- A compaction keeps one slot less than the capacity, and the write it makes room for follows. -/
  le_head : t.epoch ≠ 0 → capacity ≤ t.head

theorem paced_blank {capacity : Nat} (hc : 1 ≤ capacity) :
    (blank (2 * capacity - 1)).Paced capacity := by
  refine ⟨hc, ?_, Nat.zero_le _, ?_, fun h => absurd rfl h⟩
  · rw [blank, Array.size_replicate]
    omega
  · show 0 * capacity + 0 = 0
    rw [Nat.zero_mul]

namespace Paced

variable {capacity : Nat} {t : Tape}

theorem push (h : t.Paced capacity) (x : Sample) : (t.push x).Paced capacity := by
  obtain ⟨hpos, hsize, hhead, hbalance, hle⟩ := h
  have hsize' := size_push hhead x
  have hhead' := head_push_le (t := t) (by omega) x
  refine ⟨hpos, hsize'.trans hsize, hsize' ▸ hhead', ?_, ?_⟩
  · rw [epoch_push, head_push, written_push, ← hbalance]
    cases hf : t.isFull with
    | false =>
      rw [if_neg Bool.false_ne_true, if_neg Bool.false_ne_true]
      omega
    | true =>
      -- the head goes from behind the last slot back to the middle
      have hfull := (isFull_iff t).mp hf
      rw [if_pos rfl, if_pos rfl, keep, Nat.succ_mul]
      omega
  · rw [epoch_push, head_push]
    cases hf : t.isFull with
    | false =>
      rw [if_neg Bool.false_ne_true, if_neg Bool.false_ne_true]
      intro he
      have := hle he
      omega
    | true =>
      rw [if_pos rfl, if_pos rfl, keep]
      omega

/-- **The epoch follows from the number of writes.**  The first compaction comes after twice the
capacity, every further one after the capacity once more. -/
theorem epoch_eq (h : t.Paced capacity) :
    t.epoch = Retention.epochAfter capacity t.written := by
  obtain ⟨hpos, hsize, hhead, hbalance, hle⟩ := h
  have hdiv : t.written / capacity = t.epoch + t.head / capacity := by
    rw [← hbalance, Nat.add_comm, Nat.add_mul_div_right _ _ hpos, Nat.add_comm]
  have hlt : t.head / capacity < 2 := Nat.div_lt_of_lt_mul (by omega)
  rw [Retention.epochAfter, hdiv]
  by_cases he : t.epoch = 0
  · omega
  · have hone : 1 ≤ t.head / capacity := (Nat.one_le_div_iff hpos).mpr (hle he)
    omega

end Paced

end Tape

end MetricStore
