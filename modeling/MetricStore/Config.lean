import MetricStore.Failure

/-!
The configuration of a store: how many samples each dataset keeps, how many datasets there may
be, and whether events are listened to.

A `PartialConfig` sets some of this; `Config.overlay` puts it over another.
-/

namespace MetricStore

/-- The configuration of a store. -/
structure Config where
  /-- How many samples each dataset keeps: a minute of them at one a second, if not set. -/
  capacity : Nat := 60
  /-- How many datasets there may be. -/
  maxSeries : Option Nat := none
  /-- Whether somebody listens to events. -/
  listening : Bool := false
deriving DecidableEq

/-- What a configuration is changed by; whatever is absent stays. -/
structure PartialConfig where
  capacity : Option Nat
  maxSeries : Option Nat
deriving DecidableEq

namespace Config

/-- Puts a partial configuration over another one, or refuses it as a whole. -/
def overlay (c : Config) (part : PartialConfig) : Except Failure Config :=
  if part.capacity = some 0 then .error (.capacity 0)
  else .ok { c with
    capacity := part.capacity.getD c.capacity
    maxSeries := part.maxSeries <|> c.maxSeries }

end Config

end MetricStore
