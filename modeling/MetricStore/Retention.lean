import MetricStore.Summary
import MetricStore.Sample

/-!
The rules of retention: what happens to the samples kept when one more arrives.

* A change of value, and the first repeat of a value, are *pushed*: the sample is added, and the
  oldest one goes if the capacity is used up.
* Further repeats are *merged*: the sample takes the place of the latest one, so a run of equal
  values needs two samples.
* From `Retention.threshold` samples in a run on, the run *collapses* what is kept to its own
  first and latest sample.  A capacity of one has no room for that and merges.

`Retention.action` chooses and `Retention.apply` says on a plain list what the choice means; no
choice goes over the capacity (`Retention.length_apply_action_le`).
-/

namespace MetricStore.Retention

/-- What becomes of a sample that arrives. -/
inductive Action where
  | push
  | merge
  | collapse
deriving DecidableEq

/-- The length from which a run collapses what is kept. -/
def threshold (capacity : Nat) : Nat := 2 * capacity - 1

/-- The action for a sample, given the run it ends and whether it changed the value. -/
def action (capacity : Nat) (run : Run) (changed : Bool) : Action :=
  if changed || run.count == 2 then .push
  else if threshold capacity ≤ run.count ∧ 2 ≤ capacity then .collapse
  else .merge

/-- The samples kept after an action on the sample `x`, whose run began at `since`. -/
def apply (capacity : Nat) (since : Int64) (x : Sample) (kept : List Sample) :
    Action → List Sample
  | .push => (if kept.length < capacity then kept else kept.drop 1) ++ [x]
  | .merge => kept.dropLast ++ [x]
  | .collapse => [⟨since, x.value⟩, x]

/-- No action that is chosen for a sample leaves more than the capacity, if there was no more. -/
theorem length_apply_action_le {capacity : Nat} (h : 1 ≤ capacity) {kept : List Sample}
    (hk : kept.length ≤ capacity) (run : Run) (changed : Bool) (since : Int64) (x : Sample) :
    (apply capacity since x kept (action capacity run changed)).length ≤ capacity := by
  unfold action
  split
  · simp only [apply, List.length_append, List.length_singleton]
    split
    · omega
    · rw [List.length_drop]; omega
  · split
    · next h₂ => exact h₂.2
    · simp only [apply, List.length_append, List.length_dropLast, List.length_singleton]
      omega

/-- Whatever the action, the sample itself is the latest afterwards. -/
theorem getLast?_apply (capacity : Nat) (since : Int64) (x : Sample) (kept : List Sample)
    (a : Action) : (apply capacity since x kept a).getLast? = some x := by
  cases a with
  | push => exact List.getLast?_concat
  | merge => exact List.getLast?_concat
  | collapse => rfl

/-- How many samples an action leaves depends only on how many there were. -/
theorem length_apply_congr {kept kept' : List Sample} (h : kept.length = kept'.length)
    (capacity : Nat) (since : Int64) (x : Sample) (a : Action) :
    (apply capacity since x kept a).length = (apply capacity since x kept' a).length := by
  cases a with
  | push =>
    simp only [apply, List.length_append, h]
    split
    · rw [h]
    · rw [List.length_drop, List.length_drop, h]
  | merge => simp only [apply, List.length_append, List.length_dropLast, h]
  | collapse => rfl

end MetricStore.Retention
