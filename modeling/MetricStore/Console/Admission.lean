import MetricStore.Console

/-!
Admission: which samples a collector takes, said of the acts alone.

A sample asks for the dataset of its series on its host.  Datasets are admitted in the order in
which they are first asked for, as many as the limit allows, and a sample is taken if its dataset
is admitted (`admitted`).  `ownSamples` are the samples recorded for one dataset.
-/

namespace MetricStore.Console

/-- The dataset that an act asks for. -/
def Act.asks : Act → Option (Series × String)
  | .record series host _ => some (series, host)
  | _ => none

/-- The datasets asked for, in the order in which they are first asked for. -/
def asked (acts : List Act) : List (Series × String) := (acts.filterMap Act.asks).eraseDups

/-- The datasets admitted, in the order in which they began. -/
def admitted (limit : Option Nat) (acts : List Act) : List (Series × String) :=
  match limit with
  | none => asked acts
  | some n => (asked acts).take n

/-- The samples recorded for one dataset, in order. -/
def ownSamples (series : Series) (host : String) (acts : List Act) : List Sample :=
  acts.filterMap fun
    | .record series' host' x => if series' = series ∧ host' = host then some x else none
    | _ => none

/-- Nobody adds to a snapshot of this dataset that was handed out: it holds of every addition to
a snapshot, at the moment when it is made. -/
def LeavesAlone (series : Series) (host : String) (c : Console) (acts : List Act) : Prop :=
  ∀ earlier later position x, acts = earlier ++ .extend position x :: later →
    ∀ s, (c.after earlier).handed.snapshots[position]? = some s →
      s.isOf series host = false

/-- The signals of the samples recorded for one dataset. -/
def ownLog (series : Series) (host : String) (c : Console) (acts : List Act) :
    List Telemetry.Signal :=
  ((acts.zip (c.outcomes acts)).filter fun (a, _) => a.asks = some (series, host)).flatMap
    fun (_, o) => o.log

/-- The epochs that events tell of, in order. -/
def epochsTold (log : List Telemetry.Signal) : List Nat :=
  (Telemetry.events log).filterMap fun
    | .compacted _ _ epoch => some epoch
    | _ => none

end MetricStore.Console
