import MetricStore.Rate
import MetricStore.Snapshot

/-!
Views: a snapshot copied out of its tape.

A view owns its samples, so nothing written later shows in it, and it carries the rates between
them.  It can be kept, compared and sent elsewhere.
-/

namespace MetricStore

/-- What a reader sees of a snapshot. -/
structure View where
  /-- The text of the series. -/
  series : String
  host : String
  capacity : Nat
  samples : List Sample
  /-- For every sample but the first, the rate towards it. -/
  rates : List Sample
  min : Int64
  max : Int64
  mean : Int128
  /-- Number of samples ever added. -/
  count : Nat
  /-- Number of changes among them. -/
  changes : Nat
  /-- When the current run of equal values began. -/
  since : Int64
  /-- Number of samples in this run. -/
  runLength : Nat
deriving DecidableEq

/-- Copies a snapshot out of its tape as it stands now. -/
def View.ofSnapshot (p : Pool) (s : Snapshot) : View where
  series := s.series.text
  host := s.host
  capacity := s.capacity
  samples := s.samples p
  rates := Rate.ofSamples (s.samples p)
  min := s.summary.min
  max := s.summary.max
  mean := s.summary.mean
  count := s.summary.count
  changes := s.summary.changes
  since := s.run.since
  runLength := s.run.count

end MetricStore
