import MetricStore.Tape

/-!
What the slots of a tape hold after a push and on a fork.

A slot is read with `Tape.slot?` and a range of them with `Tape.slice`; every fact about a slice
is one about its slots (`getElem?_slice`).  Main statements:

* `slice_push_of_le`: a push without compaction leaves every range below the head as it was;
* `slice_push_succ`: a range that ends at the head and is no longer than what a compaction keeps
  grows by the pushed sample, wherever `relocate` says that it starts now;
* `slice_push_fork`: the first push on a fork puts the sample behind the copied range.
-/

namespace MetricStore.Tape

/-! ### Slots and slices -/

theorem getElem?_slice (t : Tape) (start length i : Nat) :
    (t.slice start length)[i]? = if i < length then t.slot? (start + i) else none := by
  rw [slice, Array.getElem?_toList, Array.getElem?_extract, slot?]
  by_cases hi : i < length
  · rw [if_pos hi]
    by_cases hs : start + i < t.slots.size
    · rw [if_pos (by omega)]
    · rw [if_neg (by omega), Array.getElem?_eq_none (by omega)]
  · rw [if_neg hi, if_neg (by omega)]

theorem length_slice {t : Tape} {start length : Nat} (h : start + length ≤ t.slots.size) :
    (t.slice start length).length = length := by
  rw [slice, Array.length_toList, Array.size_extract]
  omega

theorem drop_slice (t : Tape) (start length d : Nat) :
    (t.slice start length).drop d = t.slice (start + d) (length - d) := by
  refine List.ext_getElem? ?_
  intro i
  rw [List.getElem?_drop, getElem?_slice, getElem?_slice]
  by_cases hi : d + i < length
  · rw [if_pos hi, if_pos (by omega), Nat.add_assoc]
  · rw [if_neg hi, if_neg (by omega)]

theorem slice_congr {t u : Tape} {a b length : Nat}
    (h : ∀ i < length, t.slot? (a + i) = u.slot? (b + i)) :
    t.slice a length = u.slice b length := by
  refine List.ext_getElem? ?_
  intro i
  rw [getElem?_slice, getElem?_slice]
  by_cases hi : i < length
  · rw [if_pos hi, if_pos hi, h i hi]
  · rw [if_neg hi, if_neg hi]

theorem slice_succ {t : Tape} {start length : Nat} (h : start + length ≤ t.slots.size)
    {x : Sample} (hx : t.slot? (start + length) = some x) :
    t.slice start (length + 1) = t.slice start length ++ [x] := by
  refine List.ext_getElem? ?_
  intro i
  rw [getElem?_slice]
  rcases Nat.lt_trichotomy i length with hi | rfl | hi
  · rw [if_pos (by omega), List.getElem?_append_left (by rwa [length_slice h]), getElem?_slice,
      if_pos hi]
  · rw [if_pos (by omega), hx,
      List.getElem?_append_right (Nat.le_of_eq (length_slice h)), length_slice h, Nat.sub_self]
    rfl
  · rw [if_neg (by omega), List.getElem?_eq_none]
    rw [List.length_append, length_slice h, List.length_singleton]
    omega

/-! ### A write and a compaction -/

@[simp] theorem size_write (t : Tape) (x : Sample) : (t.write x).slots.size = t.slots.size := by
  simp [write]

theorem slot?_write_head {t : Tape} (h : t.head < t.slots.size) (x : Sample) :
    (t.write x).slot? t.head = some x := by
  simp [slot?, write, h]

theorem slot?_write_of_ne {t : Tape} {i : Nat} (h : i ≠ t.head) (x : Sample) :
    (t.write x).slot? i = t.slot? i := by
  simp only [slot?, write]
  rw [Array.getElem?_setIfInBounds_ne (Ne.symm h)]

theorem isFull_iff (t : Tape) : t.isFull = true ↔ t.slots.size ≤ t.head := by
  simp [isFull]

theorem isFull_eq_false_iff (t : Tape) : t.isFull = false ↔ t.head < t.slots.size := by
  simp [isFull]

theorem keep_le_head {t : Tape} (h : t.isFull = true) : t.keep ≤ t.head := by
  have hfull := (isFull_iff t).mp h
  rw [keep]
  omega

theorem size_compact {t : Tape} (h : t.head = t.slots.size) :
    t.compact.slots.size = t.slots.size := by
  simp only [compact, keep, Array.size_append, Array.size_extract]
  omega

theorem slot?_compact {t : Tape} (h : t.head = t.slots.size) {i : Nat} (hi : i < t.keep) :
    t.compact.slot? i = t.slot? (t.head - t.keep + i) := by
  have hk : t.keep ≤ t.head := keep_le_head ((isFull_iff t).mpr (Nat.le_of_eq h.symm))
  simp only [slot?, compact]
  rw [Array.getElem?_append_left (by rw [Array.size_extract]; omega), Array.getElem?_extract,
    if_pos (by omega)]

/-- What a compaction leaves behind the slots it keeps are the samples that stood there. -/
theorem slot?_compact_of_le {t : Tape} (h : t.head = t.slots.size) {i : Nat} (hi : t.keep ≤ i) :
    t.compact.slot? i = t.slot? i := by
  have hk : t.keep ≤ t.head := keep_le_head ((isFull_iff t).mpr (Nat.le_of_eq h.symm))
  have hsize : (t.slots.extract (t.head - t.keep) t.head).size = t.keep := by
    rw [Array.size_extract]
    omega
  simp only [slot?, compact]
  rw [Array.getElem?_append_right (by omega), hsize, Array.getElem?_extract]
  by_cases hlt : i < t.slots.size
  · rw [if_pos (by omega)]
    congr 1
    omega
  · rw [if_neg (by omega), Array.getElem?_eq_none (by omega)]

/-! ### A push -/

theorem push_of_not_full {t : Tape} (h : t.isFull = false) (x : Sample) :
    t.push x = t.write x := by
  rw [push, h]
  rfl

theorem push_of_full {t : Tape} (h : t.isFull = true) (x : Sample) :
    t.push x = t.compact.write x := by
  rw [push, if_pos h]

theorem size_push {t : Tape} (h : t.head ≤ t.slots.size) (x : Sample) :
    (t.push x).slots.size = t.slots.size := by
  cases hf : t.isFull with
  | false => rw [push_of_not_full hf, size_write]
  | true =>
    rw [push_of_full hf, size_write, size_compact (Nat.le_antisymm h ((isFull_iff t).mp hf))]

theorem head_push (t : Tape) (x : Sample) :
    (t.push x).head = if t.isFull then t.keep + 1 else t.head + 1 := by
  unfold push
  split <;> rfl

theorem head_push_le {t : Tape} (hs : 0 < t.slots.size) (x : Sample) :
    (t.push x).head ≤ t.slots.size := by
  rw [head_push]
  cases hf : t.isFull with
  | false => exact (isFull_eq_false_iff t).mp hf
  | true =>
    rw [if_pos rfl, keep]
    omega

/-- A push without compaction leaves the ranges below the head as they were. -/
theorem slice_push_of_le {t : Tape} (hf : t.isFull = false) {start length : Nat}
    (h : start + length ≤ t.head) (x : Sample) :
    (t.push x).slice start length = t.slice start length := by
  rw [push_of_not_full hf]
  exact slice_congr fun i hi => slot?_write_of_ne (by omega) x

/-- A compaction moves nothing into the ranges behind the slots that it keeps, and the sample pushed
then stands in front of them. -/
theorem slice_push_of_keep_lt {t : Tape} (hh : t.head ≤ t.slots.size) {start length : Nat}
    (h : start + length ≤ t.head) (hk : t.keep < start) (x : Sample) :
    (t.push x).slice start length = t.slice start length := by
  cases hf : t.isFull with
  | false => exact slice_push_of_le hf h x
  | true =>
    have hfull : t.head = t.slots.size := Nat.le_antisymm hh ((isFull_iff t).mp hf)
    rw [push_of_full hf]
    refine slice_congr ?_
    intro i hi
    have hne : start + i ≠ t.compact.head := by
      show start + i ≠ t.keep
      omega
    rw [slot?_write_of_ne hne, slot?_compact_of_le hfull (by omega)]

/-- A range that ends at the head still ends there after a push, one sample longer. -/
theorem relocate_add_succ {t : Tape} {start length : Nat} (he : start + length = t.head)
    (hl : length ≤ t.keep) (x : Sample) :
    t.relocate start + (length + 1) = (t.push x).head := by
  rw [head_push, relocate]
  cases hf : t.isFull with
  | false =>
    rw [if_neg Bool.false_ne_true, if_neg Bool.false_ne_true]
    omega
  | true =>
    have hk := keep_le_head hf
    rw [if_pos rfl, if_pos rfl]
    omega

/-- The slot below the head is the one that was written last. -/
theorem slot?_push {t : Tape} (hh : t.head ≤ t.slots.size) (hs : 0 < t.slots.size) (x : Sample)
    {i : Nat} (hi : i + 1 = (t.push x).head) : (t.push x).slot? i = some x := by
  rw [head_push] at hi
  cases hf : t.isFull with
  | false =>
    rw [hf, if_neg Bool.false_ne_true] at hi
    obtain rfl : i = t.head := by omega
    rw [push_of_not_full hf]
    exact slot?_write_head ((isFull_eq_false_iff t).mp hf) x
  | true =>
    rw [if_pos hf] at hi
    obtain rfl : i = t.compact.head := Nat.succ.inj hi
    rw [push_of_full hf]
    refine slot?_write_head ?_ x
    rw [size_compact (Nat.le_antisymm hh ((isFull_iff t).mp hf))]
    show t.keep < t.slots.size
    rw [keep]
    omega

/-- A range that ends at the head, and is no longer than what a compaction keeps, is found again
where `relocate` says. -/
theorem slice_push_relocate {t : Tape} {start length : Nat} (hh : t.head ≤ t.slots.size)
    (he : start + length = t.head) (hl : length ≤ t.keep) (x : Sample) :
    (t.push x).slice (t.relocate start) length = t.slice start length := by
  cases hf : t.isFull with
  | false =>
    rw [relocate, hf, if_neg Bool.false_ne_true]
    exact slice_push_of_le hf (by omega) x
  | true =>
    have hfull : t.head = t.slots.size := Nat.le_antisymm hh ((isFull_iff t).mp hf)
    have hkeep := keep_le_head hf
    rw [push_of_full hf, relocate, if_pos hf]
    refine slice_congr ?_
    intro i hi
    have hne : start - (t.head - t.keep) + i ≠ t.compact.head := by
      show start - (t.head - t.keep) + i ≠ t.keep
      omega
    rw [slot?_write_of_ne hne, slot?_compact hfull (by omega)]
    congr 1
    omega

/-- Behind it stands the pushed sample. -/
theorem slice_push_succ {t : Tape} {start length : Nat} (hh : t.head ≤ t.slots.size)
    (hs : 0 < t.slots.size) (he : start + length = t.head) (hl : length ≤ t.keep) (x : Sample) :
    (t.push x).slice (t.relocate start) (length + 1) = t.slice start length ++ [x] := by
  have hend : t.relocate start + length + 1 = (t.push x).head := relocate_add_succ he hl x
  have hroom : t.relocate start + length ≤ (t.push x).slots.size := by
    have hle := head_push_le hs x
    rw [size_push hh x]
    omega
  rw [slice_succ hroom (slot?_push hh hs x hend), slice_push_relocate hh he hl x]

/-! ### A fork -/

theorem size_fork {t : Tape} {start length : Nat} :
    (t.fork start length).slots.size = t.slots.size := by
  simp only [fork, Array.size_append, Array.size_extract, Array.size_replicate]
  omega

theorem head_fork {t : Tape} {start length : Nat} (h : start + length ≤ t.slots.size) :
    (t.fork start length).head = length := by
  simp only [fork, Array.size_extract]
  omega

/-- A fork of a range that a compaction would keep has room behind it. -/
theorem isFull_fork {t : Tape} {start length : Nat} (h : start + length ≤ t.slots.size)
    (hl : length ≤ t.keep) (hs : 0 < t.slots.size) : (t.fork start length).isFull = false := by
  rw [isFull_eq_false_iff, head_fork h, size_fork]
  rw [keep] at hl
  omega

theorem slice_fork {t : Tape} {start length : Nat} (h : start + length ≤ t.slots.size) :
    (t.fork start length).slice 0 length = t.slice start length := by
  refine slice_congr ?_
  intro i hi
  simp only [slot?, fork]
  rw [Array.getElem?_append_left (by rw [Array.size_extract]; omega), Array.getElem?_extract,
    if_pos (by omega), Nat.zero_add]

/-- The first push on a fork never compacts, and the sample stands behind the copied range. -/
theorem slice_push_fork {t : Tape} {start length : Nat} (h : start + length ≤ t.slots.size)
    (hl : length ≤ t.keep) (hs : 0 < t.slots.size) (x : Sample) :
    ((t.fork start length).push x).slice ((t.fork start length).relocate 0) (length + 1) =
      t.slice start length ++ [x] := by
  have hkeep : (t.fork start length).keep = t.keep := by rw [keep, keep, size_fork]
  have hlt : length < t.slots.size := by
    rw [keep] at hl
    omega
  have hhead : 0 + length = (t.fork start length).head := by rw [head_fork h, Nat.zero_add]
  have hle : (t.fork start length).head ≤ (t.fork start length).slots.size := by
    rw [head_fork h, size_fork]
    omega
  rw [slice_push_succ hle (by rwa [size_fork]) hhead (by rwa [hkeep]), slice_fork h]

end MetricStore.Tape
