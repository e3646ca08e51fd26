import MetricStore.Retention

/-!
Retention by runs: which samples of a history are kept, said of the history as a whole.

A history falls into its runs, the maximal pieces of equal consecutive values.  A run is
remembered by its ends.  A run that is long enough makes everything before it forgotten, and of
what is left the latest samples are kept, as many as the capacity allows (`Retention.kept`).

`Retention.writes` says how often the slots are written on the way there, and
`Retention.epochAfter` how often they have been moved after so many writes.
-/

namespace MetricStore.Retention

/-- The maximal pieces of equal consecutive values. -/
def runs (history : List Sample) : List (List Sample) :=
  history.splitBy fun a b => a.value == b.value

/-- The first sample of a run and its latest, once if they are the same. -/
def ends : List Sample → List Sample
  | [] => []
  | [x] => [x]
  | x :: y :: rest => [x, (y :: rest).getLast (List.cons_ne_nil y rest)]

/-- The end of a list that begins with the last element of a kind; all of it if there is none. -/
def fromLast {α : Type} (p : α → Bool) : List α → List α
  | [] => []
  | x :: rest => if rest.any p then fromLast p rest else x :: rest

/-- The last elements of a list, `n` of them or as many as there are. -/
def lastOf {α : Type} (n : Nat) (xs : List α) : List α := xs.drop (xs.length - n)

/-- The samples kept of a whole history. -/
def kept (capacity : Nat) (history : List Sample) : List Sample :=
  lastOf capacity
    ((fromLast (fun run => 2 * capacity - 1 ≤ run.length) (runs history)).flatMap ends)

/-! ### Writes -/

/-- The length of the run that a history ends in. -/
def runLength (history : List Sample) : Nat := ((runs history).getLast?.map List.length).getD 0

/-- The latest sample of a history sends the one before it to the slots: it is a change, or the
second of its run, or it collapses more than two samples.  The first sample of all sends nothing,
and with a capacity of one nothing is ever sent. -/
def isWrite (capacity : Nat) (history : List Sample) : Prop :=
  2 ≤ capacity ∧ 2 ≤ history.length ∧
    (runLength history = 1 ∨ runLength history = 2 ∨
      (runLength history = 2 * capacity - 1 ∧ 2 < (kept capacity history.dropLast).length))

instance (capacity : Nat) (history : List Sample) : Decidable (isWrite capacity history) :=
  inferInstanceAs (Decidable (_ ∧ _))

/-- How often the slots are written while a history is added sample by sample. -/
def writes (capacity : Nat) (history : List Sample) : Nat :=
  (List.range history.length).countP fun i => isWrite capacity (history.take (i + 1))

/-- How often the slots have been moved after so many writes: for the first time after twice the
capacity, then each time it is written once more. -/
def epochAfter (capacity writes : Nat) : Nat := writes / capacity - 1

/-! ### Small laws -/

theorem length_lastOf {α : Type} (n : Nat) (xs : List α) :
    (lastOf n xs).length = min n xs.length := by
  rw [lastOf, List.length_drop]
  omega

/-- What is kept of a list from its last element of a kind is the end of it. -/
theorem fromLast_suffix {α : Type} (p : α → Bool) (xs : List α) : fromLast p xs <:+ xs := by
  induction xs with
  | nil => exact List.suffix_rfl
  | cons x rest ih =>
    unfold fromLast
    split
    · exact ih.trans (List.suffix_cons x rest)
    · exact List.suffix_rfl

end MetricStore.Retention
