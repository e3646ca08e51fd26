import MetricStore.Series

/-!
Why an operation of the store fails, with the wording of every failure in one function.

A failure names its cause.  Causes that have parts of their own (a text that is no series, bytes
that do not decode, settings that do not fit) come with their reason already in words.
-/

namespace MetricStore

/-- What can go wrong. -/
inductive Failure where
  /-- A dataset retains at least one sample. -/
  | capacity (given : Nat)
  /-- A text is no series. -/
  | series (reason : String)
  /-- One more dataset would be over the limit. -/
  | full (current limit : Nat)
  /-- Settings cannot be read or do not fit. -/
  | settings (reason : String)
  /-- Bytes do not decode. -/
  | bytes (reason : String)
  /-- The lock cannot be taken. -/
  | lock (reason : String)
  /-- The slots of one dataset are more than can be addressed. -/
  | unaddressable
deriving DecidableEq

namespace Failure

/-- The wording of a failure. -/
def message : Failure → String
  | capacity given => s!"Invalid configuration: capacity must be at least 1, got {given}"
  | series reason => "Invalid series: " ++ reason
  | full current limit => s!"Series limit exceeded: current={current}, limit={limit}"
  | settings reason => "Configuration Error: " ++ reason
  | bytes reason => "Serialization Error: " ++ reason
  | lock reason => "Lock acquisition failed: " ++ reason
  | unaddressable => "capacity overflow"

/-- Every later taker of a lock learns that its holder failed. -/
def poisoned : Failure :=
  .lock "Mutex/RwLock poisoned: poisoned lock: another task failed inside"

end Failure

/-- A text that is no series, as a failure of the store. -/
def Series.ParseFault.toFailure (fault : Series.ParseFault) : Failure := .series fault.message

end MetricStore
