import MetricStore.Int128

/-!
Statistics over everything a series was ever given, and the run of equal values it ends in.

`Summary` counts samples and changes and keeps the extreme values and the sum; `Run` keeps when
the current run of equal values began and how many samples it has.  Both are updated by one
`observe`, told whether the value differs from the one before.

Design notes: counts are natural numbers, so no length of history needs an exception.  They grow by
at most one with each sample, so those of a history that begins empty fit into 64 bits for 584 years
at one sample a nanosecond.
-/

namespace MetricStore

/-- Statistics over a whole history. -/
structure Summary where
  /-- Number of samples. -/
  count : Nat
  /-- Number of samples that differ from the one before; the first one counts. -/
  changes : Nat
  min : Int64
  max : Int64
  sum : Int128
deriving DecidableEq

namespace Summary

/-- Before the first sample the least value is the greatest there is, and the other way round. -/
def empty : Summary := ⟨0, 0, Int64.maxValue, Int64.minValue, Int128.clamp 0⟩

instance : Inhabited Summary := ⟨empty⟩

/-- The statistics after one more value. -/
def observe (s : Summary) (value : Int64) (changed : Bool) : Summary where
  count := s.count + 1
  changes := if changed then s.changes + 1 else s.changes
  min := Min.min s.min value
  max := Max.max s.max value
  sum := s.sum.satAdd value.toInt

/-- The mean truncated towards zero; zero before the first sample. -/
def mean (s : Summary) : Int128 :=
  if s.count = 0 then Int128.clamp 0 else s.sum.quot s.count

end Summary

/-- The run of equal values at the end of a history. -/
structure Run where
  /-- Time of its first sample; -1 before the first sample of all. -/
  since : Int64
  /-- Number of its samples. -/
  count : Nat
deriving DecidableEq

namespace Run

def empty : Run := ⟨-1, 0⟩

instance : Inhabited Run := ⟨empty⟩

/-- A change begins a run at its time; any other sample prolongs the run. -/
def observe (r : Run) (time : Int64) (changed : Bool) : Run :=
  if changed then ⟨time, 1⟩ else ⟨r.since, r.count + 1⟩

end Run

end MetricStore
