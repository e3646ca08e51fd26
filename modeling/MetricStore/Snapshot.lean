import MetricStore.Failure
import MetricStore.Retention
import MetricStore.Span

/-!
Snapshots: what is known of one series on one host after some history.

`Snapshot.add` takes a sample and gives the next snapshot; the one it was applied to stays as it
was and can be added to again, so the snapshots of a dataset form a tree.

Design notes: statistics, run and latest sample are values of the snapshot alone.  Only the older
samples are read from the pool, and only the choice between writing in place and forking depends
on it.
-/

namespace MetricStore

/-- One immutable state of a dataset. -/
structure Snapshot where
  series : Series
  /-- The instance on which the series is observed. -/
  host : String
  /-- How many samples are kept at most. -/
  capacity : Nat
  span : Span
  run : Run
  summary : Summary
deriving DecidableEq

namespace Snapshot

/-- The slots of one dataset, of two 64-bit numbers each, are within 2⁶³ - 1 bytes. -/
def Addressable (capacity : Nat) : Prop := (2 * capacity - 1) * 16 < 0x8000000000000000

instance (capacity : Nat) : Decidable (Addressable capacity) := Nat.decLt _ _

/-- The empty snapshot, on a tape of its own. -/
def fresh (p : Pool) (series : Series) (host : String) (capacity : Nat) :
    Except Failure (Pool × Snapshot) :=
  if capacity = 0 then .error (.capacity capacity)
  else if Addressable capacity then
    let (p, span) := Span.fresh p capacity
    .ok (p, ⟨series, host, capacity, span, Run.empty, Summary.empty⟩)
  else .error .unaddressable

/-- A sample changes the value unless it repeats that of the latest one. -/
def isChange (s : Snapshot) (x : Sample) : Bool :=
  match s.span.latest with
  | none => true
  | some last => last.value != x.value

/-- The snapshot after one more sample. -/
def add (p : Pool) (s : Snapshot) (x : Sample) : Pool × Snapshot :=
  let changed := s.isChange x
  let run := s.run.observe x.time changed
  let (p, span) :=
    match Retention.action s.capacity run changed with
    | .push => s.span.push p s.capacity x
    | .merge => s.span.merge p x
    | .collapse => s.span.collapse p ⟨run.since, x.value⟩ x
  (p, { s with span := span, run := run, summary := s.summary.observe x.value changed })

/-! ### Reading a snapshot -/

/-- The snapshot is one of this series on this host. -/
def isOf (series : Series) (host : String) (s : Snapshot) : Bool :=
  s.series == series && s.host == host

/-- The number of samples kept. -/
def size (s : Snapshot) : Nat := s.span.size

/-- The samples kept, oldest first. -/
def samples (s : Snapshot) (p : Pool) : List Sample := s.span.samples p

/-- The sample at a position, oldest first. -/
def sample? (s : Snapshot) (p : Pool) (i : Nat) : Option Sample := s.span.sample? p i

/-- The time of the oldest sample kept; -1 if there is none. -/
def firstTime (s : Snapshot) (p : Pool) : Int64 := ((s.sample? p 0).map Sample.time).getD (-1)

/-- The time of the latest sample; -1 if there is none. -/
def lastTime (s : Snapshot) : Int64 := (s.span.latest.map Sample.time).getD (-1)

/-- The value of the latest sample; 0 if there is none. -/
def lastValue (s : Snapshot) : Int64 := (s.span.latest.map Sample.value).getD 0

/-- The slots of the dataset have been moved since before this snapshot was made. -/
def isOutdated (s : Snapshot) (p : Pool) : Bool := s.span.isOutdated p

end Snapshot

end MetricStore
