import MetricStore.Retention

/-!
Replays: what a history leaves behind by the rules of retention alone.

A `Replay` holds plain lists and shares nothing, so it is what a snapshot should show after the
same history: the samples kept, the run they end in and the statistics.  `Replay.ofHistory` takes
a whole history, one sample after the other.

Main statements:

* `Replay.ofHistory_concat`: one more sample of the history is one more `Replay.add`;
* `Replay.length_samples_le`: no more samples are kept than the capacity allows.
-/

namespace MetricStore

/-- What is left of a history. -/
structure Replay where
  samples : List Sample
  run : Run
  summary : Summary
deriving DecidableEq

namespace Replay

def empty : Replay := ⟨[], Run.empty, Summary.empty⟩

instance : Inhabited Replay := ⟨empty⟩

/-- A sample changes the value unless it repeats that of the latest one kept. -/
def isChange (r : Replay) (x : Sample) : Bool :=
  match r.samples.getLast? with
  | none => true
  | some last => last.value != x.value

/-- What is left after one more sample. -/
def add (capacity : Nat) (r : Replay) (x : Sample) : Replay :=
  let changed := r.isChange x
  let run := r.run.observe x.time changed
  { samples :=
      Retention.apply capacity run.since x r.samples (Retention.action capacity run changed)
    run := run
    summary := r.summary.observe x.value changed }

/-- What is left of a whole history. -/
def ofHistory (capacity : Nat) (history : List Sample) : Replay := history.foldl (add capacity) empty

theorem ofHistory_concat (capacity : Nat) (history : List Sample) (x : Sample) :
    ofHistory capacity (history ++ [x]) = (ofHistory capacity history).add capacity x := by
  simp [ofHistory]

/-- No more samples are kept than the capacity allows. -/
theorem length_samples_le {capacity : Nat} (h : 1 ≤ capacity) (history : List Sample) :
    (ofHistory capacity history).samples.length ≤ capacity := by
  suffices ∀ r : Replay, r.samples.length ≤ capacity →
      (history.foldl (add capacity) r).samples.length ≤ capacity from this empty (Nat.zero_le _)
  induction history with
  | nil => exact fun _ h => h
  | cons x rest ih => exact fun _ h' => ih _ (Retention.length_apply_action_le h h' _ _ _ x)

end Replay

end MetricStore
