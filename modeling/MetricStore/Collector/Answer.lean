import MetricStore.Collector.Select
import MetricStore.Query
import MetricStore.View

/-!
Answers to a batch of queries: views grouped by the text that was asked for.

A text stands where it was asked for first, as it was written; what is found for its later
occurrences is added behind.  A text that is no series finds nothing.  The lock is only taken for
texts that are series.
-/

namespace MetricStore.Collector

/-- Adds values under a key: behind those it has, or under a new key at the end. -/
def group {α : Type} (key : String) (found : List α) :
    List (String × List α) → List (String × List α)
  | [] => [(key, found)]
  | (k, known) :: rest =>
    if k = key then (k, known ++ found) :: rest else (k, known) :: group key found rest

/-- The snapshots that a query asks for. -/
def selectFor (c : Collector) (q : Query) : Except Failure (List Snapshot) :=
  match Series.parse q.series, q.hosts with
  | .error _, _ => .ok []
  | .ok series, none => c.select series
  | .ok series, some hosts => c.selectOn series hosts

/-- Answers queries in order, grouped by their texts. -/
def answer (c : Collector) (p : Pool) (queries : List Query) :
    Except Failure (List (String × List View)) :=
  queries.foldlM (fun answers q => do
    let found ← c.selectFor q
    return group q.series (found.map (View.ofSnapshot p)) answers) []

end MetricStore.Collector
