import MetricStore.Collector.Answer
import MetricStore.Lineage

/-!
Consoles: a collector together with the snapshots it has handed out.

A snapshot handed out shares its tape with the collector's own, and whoever holds it may add to
it.  Collector and holders therefore work on one pool of tapes.  What can be done with a console
is an `Act`: a sample is recorded, snapshots are read and thereby handed out, or a holder adds to
a snapshot.
-/

namespace MetricStore

/-- A collector, and the snapshots in the hands of others with the pool they all read. -/
structure Console where
  collector : Collector
  handed : Lineage

namespace Console

/-- A console on an empty collector. -/
def start (config : Config) : Except Failure Console :=
  return ⟨← Collector.start config, Lineage.empty⟩

/-! ### Recording -/

/-- The collector takes one sample. -/
def record (c : Console) (series : Series) (host : String) (x : Sample) :
    Console × List Telemetry.Signal × Except Failure Unit :=
  let r := c.collector.record c.handed.pool series host x
  (⟨r.collector, { c.handed with pool := r.pool }⟩, r.log, r.result)

/-- The collector takes samples of one series on one host, up to the first that fails; the
result is that of the last one taken, if any. -/
def recordMany (c : Console) (series : Series) (host : String) :
    List Sample → Console × List Telemetry.Signal × Option (Except Failure Unit)
  | [] => (c, [], none)
  | x :: xs =>
    match c.record series host x with
    | (c, log, .error failure) => (c, log, some (.error failure))
    | (c, log, .ok ()) =>
      let (c, more, result) := c.recordMany series host xs
      (c, log ++ more, some (result.getD (.ok ())))

/-! ### Reading -/

/-- A reading of current snapshots. -/
inductive Reading where
  | get (series : Series) (host : String)
  | select (series : Series)
  | selectOn (series : Series) (hosts : List String)
  | selectAll

/-- The snapshots that a reading finds. -/
def Reading.find (c : Collector) : Reading → Except Failure (List Snapshot)
  | get series host => Option.toList <$> c.get series host
  | select series => c.select series
  | selectOn series hosts => c.selectOn series hosts
  | selectAll => c.selectAll

/-- The snapshots that a reading finds are handed out. -/
def read (c : Console) (r : Reading) : Console × Except Failure (List Snapshot) :=
  match r.find c.collector with
  | .error failure => (c, .error failure)
  | .ok found => ({ c with handed := found.foldl Lineage.keep c.handed }, .ok found)

/-- The holder of a snapshot adds to it. -/
def extend (c : Console) (i : Nat) (x : Sample) : Console := { c with handed := c.handed.add i x }

/-! ### Acts -/

/-- What can be done with a console. -/
inductive Act where
  | record (series : Series) (host : String) (x : Sample)
  | read (reading : Reading)
  /-- Adds to the snapshot handed out at a position. -/
  | extend (position : Nat) (x : Sample)

/-- What comes of one act. -/
structure Outcome where
  console : Console
  log : List Telemetry.Signal
  /-- The result of the sample, if one was recorded. -/
  result : Option (Except Failure Unit)

/-- One act. -/
def act (c : Console) : Act → Outcome
  | .record series host x =>
    let (c, log, result) := c.record series host x
    ⟨c, log, some result⟩
  | .read reading => ⟨(c.read reading).1, [], none⟩
  | .extend position x => ⟨c.extend position x, [], none⟩

/-- The console after some acts. -/
def after (c : Console) (acts : List Act) : Console := acts.foldl (fun c a => (c.act a).console) c

/-- What comes of each of some acts. -/
def outcomes (c : Console) : List Act → List Outcome
  | [] => []
  | a :: rest => c.act a :: outcomes (c.act a).console rest

/-- All signals of some acts, in order. -/
def log (c : Console) (acts : List Act) : List Telemetry.Signal :=
  (c.outcomes acts).flatMap Outcome.log

/-- The results of all samples recorded, in order. -/
def results (c : Console) (acts : List Act) : List (Except Failure Unit) :=
  (c.outcomes acts).filterMap Outcome.result

theorem after_append (c : Console) (earlier later : List Act) :
    c.after (earlier ++ later) = (c.after earlier).after later := by
  simp [after]

theorem outcomes_append (c : Console) (earlier later : List Act) :
    c.outcomes (earlier ++ later) = c.outcomes earlier ++ (c.after earlier).outcomes later := by
  induction earlier generalizing c with
  | nil => rfl
  | cons a rest ih => rw [List.cons_append, outcomes, ih, outcomes, List.cons_append]; rfl

theorem log_append (c : Console) (earlier later : List Act) :
    c.log (earlier ++ later) = c.log earlier ++ (c.after earlier).log later := by
  simp [log, outcomes_append]

theorem results_append (c : Console) (earlier later : List Act) :
    c.results (earlier ++ later) = c.results earlier ++ (c.after earlier).results later := by
  simp [results, outcomes_append]

end Console

end MetricStore
