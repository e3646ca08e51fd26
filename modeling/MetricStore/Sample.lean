/-!
Samples: what a series is made of.

A sample is one observation, a time in milliseconds with a value.  A list of samples has a flat
form, time and value in turn; `ofFlat` reads it back and drops a last time without a value
(`ofFlat_flatten`).
-/

namespace MetricStore

/-- One observation: its time in milliseconds and its value. -/
structure Sample where
  time : Int64
  value : Int64
deriving DecidableEq

namespace Sample

/-- The sample a slot holds before anything is written to it. -/
def blank : Sample := ⟨0, 0⟩

instance : Inhabited Sample := ⟨blank⟩

/-- Times and values in turn. -/
def flatten (samples : List Sample) : List Int64 :=
  samples.flatMap fun s => [s.time, s.value]

/-- The samples of a flat list; a time without a value behind it is dropped. -/
def ofFlat : List Int64 → List Sample
  | t :: v :: rest => ⟨t, v⟩ :: ofFlat rest
  | _ => []

theorem flatten_cons (s : Sample) (rest : List Sample) :
    flatten (s :: rest) = s.time :: s.value :: flatten rest := rfl

theorem length_flatten (samples : List Sample) : (flatten samples).length = 2 * samples.length := by
  induction samples with
  | nil => rfl
  | cons s rest ih =>
    rw [flatten_cons, List.length_cons, List.length_cons, ih, List.length_cons]
    omega

/-- Reading the flat form back gives the samples. -/
theorem ofFlat_flatten (samples : List Sample) : ofFlat (flatten samples) = samples := by
  induction samples with
  | nil => rfl
  | cons s rest ih => rw [flatten_cons, ofFlat, ih]

end Sample

end MetricStore
