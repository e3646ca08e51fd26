import MetricStore.Collector

/-!
Selections: reading the current snapshots of a collector, each in a fixed order.

Snapshots of one series come by host, those of all series by the text of the series and then by
host, and lists of series and of hosts are sorted and without repetition.  Texts are compared
character by character.

Design notes: each reading walks the shelves in the order in which it meets them and sorts what it
finds by itself.  Hosts are brought together over all shelves, so they need to be told apart; series
need not, since a series has one shelf.
-/

namespace MetricStore.Collector

/-- A reading that takes the lock: it fails once a holder of the lock has failed. -/
def locked {α : Type} (c : Collector) (reading : α) : Except Failure α :=
  if c.poisoned then .error .poisoned else .ok reading

/-- The texts in increasing order, each once. -/
def sortedTexts (texts : List String) : List String :=
  texts.eraseDups.mergeSort fun a b => decide (a ≤ b)

/-- The order of the snapshots of one series. -/
def byHost (a b : Snapshot) : Bool := decide (a.host ≤ b.host)

/-- The order of all snapshots: by the text of the series, then by host. -/
def precedes (a b : Snapshot) : Bool :=
  decide (a.series.text < b.series.text) ||
    (a.series.text == b.series.text && decide (a.host ≤ b.host))

/-- The current snapshot of a series on a host. -/
def get (c : Collector) (series : Series) (host : String) : Except Failure (Option Snapshot) :=
  c.locked (c.find? series host)

/-- The snapshots of a series on all hosts, by host. -/
def select (c : Collector) (series : Series) : Except Failure (List Snapshot) :=
  c.locked <| (((c.stock.shelves.get? series).map Table.values).getD []).mergeSort byHost

/-- The snapshots of a series on some hosts, by host; hosts that do not have it are left out. -/
def selectOn (c : Collector) (series : Series) (hosts : List String) :
    Except Failure (List Snapshot) :=
  let found := match c.stock.shelves.get? series with
    | some shelf => (sortedTexts hosts).filterMap shelf.get?
    | none => []
  c.locked <| found.mergeSort byHost

/-- All snapshots, by the text of the series and then by host. -/
def selectAll (c : Collector) : Except Failure (List Snapshot) :=
  c.locked <| c.datasets.mergeSort precedes

/-- The series that have a shelf, by their text. -/
def seriesList (c : Collector) : Except Failure (List Series) :=
  c.locked <| c.stock.shelves.keys.mergeSort fun a b => decide (a.text ≤ b.text)

/-- The hosts on any shelf, in increasing order. -/
def hosts (c : Collector) : Except Failure (List String) :=
  c.locked <| sortedTexts (c.stock.shelves.values.flatMap Table.keys)

/-- The number of datasets, as it is kept. -/
def size (c : Collector) : Except Failure Nat := c.locked c.stock.count

/-- There is no dataset. -/
def isEmpty (c : Collector) : Except Failure Bool := return (← c.size) == 0

end MetricStore.Collector
