import MetricStore.Config
import MetricStore.Stock
import MetricStore.Telemetry.Signal

/-!
Collectors: the current snapshot of every series on every host.

`Collector.record` takes one sample.  The first sample of a series on a host makes a dataset,
unless there are as many as the configuration allows; any other replaces the current snapshot by
the next one.  What happens is told in signals.

Design notes: how many datasets there are is read off the number that the stock keeps, for the limit,
in a refusal and for the gauge.  A collector whose lock holder failed is `poisoned` and refuses
everything but its configuration; this happens when the slots of a new dataset are more than can be
addressed.
-/

namespace MetricStore

/-- The current snapshots with the configuration they are made by. -/
structure Collector where
  config : Config
  stock : Stock
  poisoned : Bool
deriving DecidableEq

namespace Collector

open Telemetry

/-- An empty collector; a dataset keeps at least one sample. -/
def start (config : Config) : Except Failure Collector :=
  if config.capacity = 0 then .error (.capacity config.capacity)
  else .ok ⟨config, .empty, false⟩

/-- The current snapshots of all datasets, in no order that counts. -/
def datasets (c : Collector) : List Snapshot := c.stock.snapshots

/-- The current snapshot of a series on a host. -/
def find? (c : Collector) (series : Series) (host : String) : Option Snapshot :=
  c.stock.find? series host

/-- Puts a snapshot in the place of the current one of a series on a host. -/
def replace (c : Collector) (series : Series) (host : String) (next : Snapshot) : Collector :=
  { c with stock := c.stock.replace series host next }

/-- Puts the first snapshot of a dataset in place. -/
def insert (c : Collector) (series : Series) (host : String) (first : Snapshot) : Collector :=
  { c with stock := c.stock.insert series host first }

/-- The limit that leaves no room for one more dataset, if there is one. -/
def reachedLimit? (c : Collector) : Option Nat :=
  c.config.maxSeries.filter (· ≤ c.stock.count)

/-- An event is emitted if somebody listens. -/
def tell (c : Collector) (e : Event) : List Signal :=
  if c.config.listening then [.event e] else []

/-- What comes of one sample. -/
structure Recorded where
  pool : Pool
  collector : Collector
  log : List Signal
  result : Except Failure Unit

/-- The next sample of a dataset whose current snapshot is `current`. -/
def recordNext (c : Collector) (p : Pool) (series : Series) (host : String) (current : Snapshot)
    (x : Sample) : Recorded :=
  let (p, next) := current.add p x
  let compacted :=
    if next.span.hasCompacted then
      .count .compactions ::
        c.tell (.compacted series.text host (p.tape next.span.tape).epoch)
    else []
  ⟨p, c.replace series host next, .count .ingested :: compacted, .ok ()⟩

/-- The first sample of a dataset. -/
def recordFirst (c : Collector) (p : Pool) (series : Series) (host : String) (x : Sample) :
    Recorded :=
  let key := c.stock.stored series
  match Snapshot.fresh p key host c.config.capacity with
  -- The lock is held at this moment, and nothing is in place yet.
  | .error .unaddressable => ⟨p, { c with poisoned := true }, [], .error .unaddressable⟩
  | .error failure => ⟨p, c, [], .error failure⟩
  | .ok (p, empty) =>
    let (p, first) := empty.add p x
    let c := c.insert key host first
    let created := c.tell (.created series.text host c.config.capacity)
    ⟨p, c, .count .ingested :: .datasets c.stock.count :: created, .ok ()⟩

/-- Takes one sample of a series on a host. -/
def record (c : Collector) (p : Pool) (series : Series) (host : String) (x : Sample) : Recorded :=
  if c.poisoned then ⟨p, c, [], .error .poisoned⟩
  else
    match c.find? series host with
    | some current => c.recordNext p series host current x
    | none =>
      match c.reachedLimit? with
      | some limit =>
        ⟨p, c, .count .rejections :: c.tell (.rejected series.text host limit),
          .error (.full c.stock.count limit)⟩
      | none => c.recordFirst p series host x

end Collector

end MetricStore
