import MetricStore.Telemetry.Signal
import MetricStore.Telemetry.Gauge

/-!
What a recorder of signals shows: a value for each metric, and the type of each.

One recorder serves a whole process; it cannot be installed a second time.
-/

namespace MetricStore.Telemetry

/-- The two types of metric. -/
inductive Kind where
  | counter
  | gauge
deriving DecidableEq

def Kind.name : Kind → String
  | counter => "counter"
  | gauge => "gauge"

/-- A metric with its description; all of them are plain counts. -/
structure Description where
  kind : Kind
  metric : String
  unit : String
  text : String
deriving DecidableEq

/-- The descriptions of all metrics: counters first, then the gauge. -/
def descriptions : List Description :=
  Counter.all.map (fun c => ⟨.counter, c.name, "count", c.description⟩)
    ++ [⟨.gauge, datasetsName, "count", datasetsDescription⟩]

/-- The value of every metric after a log: how often a counter grew, and the last value of the
gauge, or zero. -/
def samples (log : List Signal) : List (String × String) :=
  Counter.all.map (fun c => (c.name, toString (total c log)))
    ++ [(datasetsName, Gauge.text ((gaugeValues log).getLast?.getD 0))]

/-- The line that tells the type of a metric. -/
def typeLine (d : Description) : String := "# TYPE " ++ d.metric ++ " " ++ d.kind.name

/-- The lines of all metrics, in order. -/
def typeLines : List String :=
  (descriptions.map typeLine).mergeSort fun a b => decide (a ≤ b)

/-- Why a recorder cannot be installed. -/
inductive InstallFault where
  | alreadyInstalled
deriving DecidableEq

def InstallFault.message : InstallFault → String
  | alreadyInstalled => "metrics recorder already installed"

/-- Installs the recorder of a process, told whether it has one. -/
def install (installed : Bool) : Except InstallFault Unit :=
  if installed then .error .alreadyInstalled else .ok ()

end MetricStore.Telemetry
