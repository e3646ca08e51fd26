import MetricStore.Snapshot
import MetricStore.Table

/-!
Stocks: the current snapshots of a collector, by series and then by host.

A series has a shelf with one snapshot for each of its hosts.  A shelf is set up when the first dataset
of its series begins, and all snapshots on it share the series as it was stored then.

Design notes: the number of datasets is kept beside the shelves and grows by one with each dataset that
begins; nothing ever counts the snapshots on the shelves.
-/

namespace MetricStore

/-- The current snapshots of one series, by host. -/
abbrev Shelf := Table String Snapshot

/-- The current snapshots of all series, and how many there are. -/
structure Stock where
  shelves : Table Series Shelf
  /-- The number of datasets over all series. -/
  count : Nat
deriving DecidableEq

namespace Stock

def empty : Stock := ⟨.empty, 0⟩

/-- All snapshots, shelf by shelf. -/
def snapshots (t : Stock) : List Snapshot := t.shelves.values.flatMap Table.values

/-- The current snapshot of a series on a host. -/
def find? (t : Stock) (series : Series) (host : String) : Option Snapshot :=
  (t.shelves.get? series).bind (·.get? host)

/-- Puts a snapshot in the place of the current one of a series on a host. -/
def replace (t : Stock) (series : Series) (host : String) (next : Snapshot) : Stock :=
  { t with shelves := t.shelves.modify series fun shelf => shelf.modify host fun _ => next }

/-- The series as it is stored, or as it is given if it has no shelf yet. -/
def stored (t : Stock) (series : Series) : Series :=
  match t.shelves.pair? series with
  | some (key, _) => key
  | none => series

/-- Puts the first snapshot of a dataset on the shelf of its series. -/
def insert (t : Stock) (series : Series) (host : String) (first : Snapshot) : Stock where
  shelves := t.shelves.modifyOr series .empty fun shelf => shelf.insert host first
  count := t.count + 1

end Stock

end MetricStore
