/-!
Queries: a series by its text, on all hosts or on some.
-/

namespace MetricStore

/-- One request of a batch. -/
structure Query where
  /-- The text of a series. -/
  series : String
  /-- The hosts asked for; all of them if absent. -/
  hosts : Option (List String)
deriving DecidableEq

end MetricStore
