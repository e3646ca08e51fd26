import MetricStore.Failure
import MetricStore.Query
import MetricStore.View
import MetricStore.Wire.Format

/-!
The binary form of the records of the store: their fields one after the other.

There is one format for each of samples, series, queries, statistics, runs and views.  A series
is written tags first.  Bytes come from outside, so reading them fails the way the rest of the
store fails (`Format.fromBytes`).
-/

namespace MetricStore.Wire

/-- Bytes that do not decode, as a failure of the store. -/
def Fault.toFailure (fault : Fault) : Failure := .bytes fault.message

/-- Reads one value from bytes given to the store. -/
def Format.fromBytes {α : Type} (f : Format α) (bytes : List UInt8) : Except Failure α :=
  (f.decode bytes).mapError Fault.toFailure

/-- Time, value. -/
def sample : Format Sample :=
  (Format.int64.pair Format.int64).map (fun (time, value) => ⟨time, value⟩)
    fun s => (s.time, s.value)

/-- Tags, name; a tag is its key and its value. -/
def series : Format Series :=
  ((Format.list (Format.text.pair Format.text)).pair Format.text).map
    (fun (tags, name) => ⟨tags, name⟩) fun s => (s.tags, s.name)

/-- Text of the series, hosts. -/
def query : Format Query :=
  (Format.text.pair (Format.option (Format.list Format.text))).map
    (fun (series, hosts) => ⟨series, hosts⟩) fun q => (q.series, q.hosts)

/-- Count, changes, least, greatest, sum. -/
def summary : Format Summary :=
  (Format.nat64.pair <| Format.nat64.pair <| Format.int64.pair <| Format.int64.pair
    Format.int128).map
    (fun (count, changes, min, max, sum) => ⟨count, changes, min, max, sum⟩)
    fun s => (s.count, s.changes, s.min, s.max, s.sum)

/-- Begin, length. -/
def run : Format Run :=
  (Format.int64.pair Format.nat64).map (fun (since, count) => ⟨since, count⟩)
    fun r => (r.since, r.count)

/-- The fields of a view in their order. -/
def view : Format View :=
  (Format.text.pair <| Format.text.pair <| Format.nat64.pair <|
    (Format.list sample).pair <| (Format.list sample).pair <|
    Format.int64.pair <| Format.int64.pair <| Format.int128.pair <|
    Format.nat64.pair <| Format.nat64.pair <| Format.int64.pair Format.nat64).map
    (fun (series, host, capacity, samples, rates, min, max, mean, count, changes, since,
      runLength) =>
      ⟨series, host, capacity, samples, rates, min, max, mean, count, changes, since, runLength⟩)
    fun v => (v.series, v.host, v.capacity, v.samples, v.rates, v.min, v.max, v.mean, v.count,
      v.changes, v.since, v.runLength)

end MetricStore.Wire
