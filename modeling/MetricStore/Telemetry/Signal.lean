/-!
Signals: what the store says about itself while it works.

Three counters only grow, one gauge holds the number of datasets, and events tell of single
incidents to a listener.  Everything is emitted in the order in which it happens, so a log of
signals is a list.
-/

namespace MetricStore.Telemetry

/-- The counters of the store. -/
inductive Counter where
  /-- Samples taken in. -/
  | ingested
  /-- Slots moved to make room. -/
  | compactions
  /-- Samples refused because of the limit. -/
  | rejections
deriving DecidableEq

namespace Counter

/-- All counters, in the order in which they are described. -/
def all : List Counter := [ingested, compactions, rejections]

def name : Counter → String
  | ingested => "mcstore_ingest_points"
  | compactions => "mcstore_buffer_compactions"
  | rejections => "mcstore_series_limit_rejections"

/-- What the counter counts, in words. -/
def description : Counter → String
  | ingested => "Total number of observations added through SeriesRepository::add."
  | compactions => "Number of physical buffer compactions (each outdates older snapshots)."
  | rejections => "Observations rejected because the series limit was reached."

end Counter

/-- The name of the gauge that holds the number of datasets. -/
def datasetsName : String := "mcstore_datasets"

/-- What this gauge holds, in words. -/
def datasetsDescription : String :=
  "Number of (series, instance) datasets held by the repository."

/-- Incidents, each with the text of the series and the host it concerns. -/
inductive Event where
  /-- A dataset began, with this capacity. -/
  | created (series host : String) (capacity : Nat)
  /-- An addition moved the slots of a dataset, which begins this epoch. -/
  | compacted (series host : String) (epoch : Nat)
  /-- A dataset was refused because there are `limit` of them. -/
  | rejected (series host : String) (limit : Nat)
deriving DecidableEq

/-- What is emitted. -/
inductive Signal where
  /-- A counter grows by one. -/
  | count (counter : Counter)
  /-- The gauge is set. -/
  | datasets (number : Nat)
  /-- The listener is told. -/
  | event (event : Event)
deriving DecidableEq

/-- How often a counter grew. -/
def total (counter : Counter) (log : List Signal) : Nat := log.count (.count counter)

/-- What the gauge was set to, in order. -/
def gaugeValues (log : List Signal) : List Nat :=
  log.filterMap fun
    | .datasets number => some number
    | _ => none

/-- The events, in order. -/
def events (log : List Signal) : List Event :=
  log.filterMap fun
    | .event e => some e
    | _ => none

end MetricStore.Telemetry
