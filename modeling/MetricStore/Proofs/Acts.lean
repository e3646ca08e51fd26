import MetricStore.Console
import MetricStore.Proofs.Stocks
import MetricStore.Proofs.Tree

/-!
What an act can do to a console.

An act of a console whose collector is not poisoned does one of six things, with everything that
comes of it (`Console.Step`, `Console.act_step`): a sample is the next of a dataset, is refused, or
is the first of a dataset; a reading hands snapshots out; a holder adds to a snapshot, or points at
none.  What an act keeps is therefore shown once for each of them.

Whatever the collector, an act leaves its stock tidy (`Console.tidy_act`), and so does every run
(`Console.tidy_after`); datasets are then told apart by their `Snapshot.key`.
-/

namespace MetricStore

/-- The first snapshot of a dataset that has one. -/
def Snapshot.opening (p : Pool) (series : Series) (host : String) (capacity : Nat) (x : Sample) :
    Pool × Snapshot :=
  (blank p series host capacity).add (Span.fresh p capacity).1 x

/-- It leaves its tape blank. -/
theorem Snapshot.tape_opening (p : Pool) (series : Series) (host : String) (capacity : Nat)
    (x : Sample) :
    (opening p series host capacity x).1.tape (opening p series host capacity x).2.span.tape =
      Tape.blank (2 * capacity - 1) :=
  Span.tape_add_size p _

theorem Snapshot.key_of_fresh {p q : Pool} {series : Series} {host : String} {capacity : Nat}
    {s : Snapshot} (h : fresh p series host capacity = .ok (q, s)) : s.key = (series, host) := by
  rw [fresh] at h
  split at h
  · cases h
  · split at h
    · cases h
      rfl
    · cases h

namespace Collector

variable {c : Collector} {series : Series} {host : String} {s current next : Snapshot}

/-! ### Finding and replacing -/

theorem mem_of_find? (h : c.stock.Tidy) (found : c.find? series host = some s) :
    s ∈ c.datasets ∧ s.key = (series, host) := h.find?_eq_some_iff.mp found

/-- A dataset is found if and only if its key is in place. -/
theorem find?_eq_none_iff (h : c.stock.Tidy) :
    c.find? series host = none ↔ (series, host) ∉ c.datasets.map Snapshot.key :=
  h.find?_eq_none_iff

theorem key_ne_of_find?_eq_none (h : c.stock.Tidy) (absent : c.find? series host = none)
    (hs : s ∈ c.datasets) : s.key ≠ (series, host) := by
  intro hkey
  exact (find?_eq_none_iff h).mp absent (List.mem_map.mpr ⟨s, hs, hkey⟩)

/-- The snapshots after a replacement are the new one and those of other datasets. -/
theorem mem_replace (h : c.stock.Tidy) (hs : s ∈ (c.replace series host next).datasets) :
    s = next ∨ s ∈ c.datasets ∧ s.key ≠ (series, host) := by
  rw [datasets, replace, h.snapshots_replace] at hs
  obtain ⟨o, ho, hs⟩ := List.mem_map.mp hs
  cases hof : o.isOf series host with
  | true =>
    rw [hof, if_pos rfl] at hs
    exact .inl hs.symm
  | false =>
    rw [hof, if_neg Bool.false_ne_true] at hs
    subst hs
    refine .inr ⟨ho, fun hkey => ?_⟩
    rw [Snapshot.isOf_iff.mpr hkey] at hof
    exact Bool.noConfusion hof

theorem keys_replace (h : c.stock.Tidy) (hkey : next.key = (series, host)) :
    (c.replace series host next).datasets.map Snapshot.key = c.datasets.map Snapshot.key := by
  rw [datasets, replace, h.snapshots_replace, List.map_map]
  refine List.map_congr_left fun s _ => ?_
  rw [Function.comp_apply]
  split
  · next hof => exact hkey.trans (Snapshot.isOf_iff.mp hof).symm
  · rfl

theorem find?_of_get (h : c.get series host = .ok (some s)) : c.find? series host = some s := by
  rw [Collector.get, locked] at h
  split at h
  · cases h
  · exact Except.ok.inj h

theorem find?_replace_self (found : c.find? series host = some current) (next : Snapshot) :
    (c.replace series host next).find? series host = some next := by
  rw [find?] at found
  rw [find?, replace, Stock.find?_replace, found, Option.map_some, if_pos rfl]

theorem find?_replace_other (c : Collector) {series' : Series} {host' : String}
    (hne : (series', host') ≠ (series, host)) (next : Snapshot) :
    (c.replace series' host' next).find? series host = c.find? series host := by
  rw [find?, replace, Stock.find?_replace]
  simp only [hne.symm, if_false, Option.map_id']
  rfl

/-! ### The limit -/

theorem reachedLimit?_eq_some_iff {limit : Nat} :
    c.reachedLimit? = some limit ↔ c.config.maxSeries = some limit ∧ limit ≤ c.stock.count := by
  rw [reachedLimit?, Option.filter_eq_some_iff, decide_eq_true_iff]

theorem reachedLimit?_eq_none_iff :
    c.reachedLimit? = none ↔ ∀ limit, c.config.maxSeries = some limit → c.stock.count < limit := by
  rw [reachedLimit?, Option.filter_eq_none_iff]
  refine forall₂_congr fun limit _ => ?_
  rw [decide_eq_true_iff, Nat.not_le]

/-! ### Hosts on the shelf of a series -/

/-- Looking hosts up on the shelf of a series is looking up their datasets. -/
theorem selectOn_eq (c : Collector) (series : Series) (hosts : List String) :
    c.selectOn series hosts =
      c.locked (((sortedTexts hosts).filterMap (c.find? series)).mergeSort byHost) := by
  rw [selectOn]
  refine congrArg (fun found : List Snapshot => c.locked (found.mergeSort byHost)) ?_
  have hfind : c.find? series = fun host => (c.stock.shelves.get? series).bind (·.get? host) := rfl
  rw [hfind]
  cases c.stock.shelves.get? series with
  | some shelf => rfl
  | none => exact (List.filterMap_eq_nil_iff.mpr fun _ _ => rfl).symm

/-! ### Tidy stocks -/

theorem tidy_recordFirst (h : c.stock.Tidy) (p : Pool) (absent : c.find? series host = none)
    (x : Sample) :
    (c.recordFirst p series host x).collector.stock.Tidy := by
  rw [recordFirst, Stock.stored_eq]
  split
  · exact h
  · exact h
  · next q empty hfresh =>
    have hkey : empty.key = (series, host) := Snapshot.key_of_fresh hfresh
    exact h.insert absent (hkey : (empty.add q x).2.key = (series, host))

/-- A sample leaves the stock tidy, whatever comes of it. -/
theorem tidy_record (h : c.stock.Tidy) (p : Pool) (series : Series) (host : String) (x : Sample) :
    (c.record p series host x).collector.stock.Tidy := by
  rw [record]
  split
  · exact h
  · cases hf : c.find? series host with
    | some current => exact h.replace (mem_of_find? h hf).2
    | none =>
      cases c.reachedLimit? with
      | some limit => exact h
      | none => exact tidy_recordFirst h p hf x

end Collector

namespace Console

open Collector Telemetry

/-- A reading takes the lock and finds snapshots in place. -/
theorem Reading.find_eq_locked (c : Collector) (reading : Reading) :
    ∃ found, (∀ s ∈ found, s ∈ c.datasets) ∧ reading.find c = c.locked found := by
  cases reading with
  | get series host =>
    refine ⟨(c.find? series host).toList, ?_, ?_⟩
    · intro s hs
      exact Stock.mem_snapshots_of_find? (Option.mem_toList.mp hs)
    · rw [Reading.find, Collector.get, locked, locked]
      split <;> rfl
  | select series =>
    refine ⟨_, ?_, rfl⟩
    intro s hs
    rw [List.mem_mergeSort] at hs
    cases hshelf : c.stock.shelves.get? series with
    | none =>
      rw [hshelf] at hs
      exact absurd hs List.not_mem_nil
    | some shelf =>
      rw [hshelf] at hs
      exact Stock.mem_snapshots_of_get? hshelf hs
  | selectOn series hosts =>
    refine ⟨_, ?_, selectOn_eq c series hosts⟩
    intro s hs
    obtain ⟨host, -, hfind⟩ := List.mem_filterMap.mp (List.mem_mergeSort.mp hs)
    exact Stock.mem_snapshots_of_find? hfind
  | selectAll =>
    refine ⟨_, ?_, rfl⟩
    intro s hs
    exact List.mem_mergeSort.mp hs

theorem foldl_keep (l : Lineage) (found : List Snapshot) :
    found.foldl Lineage.keep l = ⟨l.pool, l.snapshots ++ found.toArray⟩ := by
  induction found generalizing l with
  | nil => rw [List.foldl_nil, Array.append_empty]
  | cons s rest ih =>
    rw [List.foldl_cons, ih, Lineage.keep]
    simp

/-! ### The six things that an act can do -/

/-- What an act can do to a console, and what comes of it. -/
inductive Step (c : Console) : Act → Outcome → Prop where
  /-- The next sample of a dataset. -/
  | next {series : Series} {host : String} {x : Sample} {current : Snapshot}
      (found : c.collector.find? series host = some current) :
      Step c (.record series host x)
        ⟨⟨c.collector.replace series host (current.add c.handed.pool x).2,
            { c.handed with pool := (current.add c.handed.pool x).1 }⟩,
          (c.collector.recordNext c.handed.pool series host current x).log, some (.ok ())⟩
  /-- There is no room for one more dataset. -/
  | refused {series : Series} {host : String} {x : Sample} {limit : Nat}
      (absent : c.collector.find? series host = none)
      (limited : c.collector.config.maxSeries = some limit)
      (full : limit ≤ c.collector.stock.count) :
      Step c (.record series host x)
        ⟨c, .count .rejections :: c.collector.tell (.rejected series.text host limit),
          some (.error (.full c.collector.stock.count limit))⟩
  /-- The first sample of a dataset, which begins on a new tape. -/
  | first {series : Series} {host : String} {x : Sample}
      (absent : c.collector.find? series host = none)
      (room : ∀ limit, c.collector.config.maxSeries = some limit →
        c.collector.stock.count < limit) :
      Step c (.record series host x)
        ⟨⟨c.collector.insert series host
              (Snapshot.opening c.handed.pool series host c.collector.config.capacity x).2,
            { c.handed with
              pool :=
                (Snapshot.opening c.handed.pool series host c.collector.config.capacity x).1 }⟩,
          .count .ingested :: .datasets (c.collector.stock.count + 1) ::
            c.collector.tell (.created series.text host c.collector.config.capacity),
          some (.ok ())⟩
  /-- Snapshots in place are handed out. -/
  | read {reading : Reading} {found : List Snapshot}
      (finds : reading.find c.collector = .ok found) (stored : ∀ s ∈ found, s ∈ c.collector.datasets) :
      Step c (.read reading)
        ⟨{ c with handed := ⟨c.handed.pool, c.handed.snapshots ++ found.toArray⟩ }, [], none⟩
  /-- A holder adds to a snapshot. -/
  | extend {position : Nat} {x : Sample} {held : Snapshot}
      (holds : c.handed.snapshots[position]? = some held) :
      Step c (.extend position x)
        ⟨{ c with handed := ⟨(held.add c.handed.pool x).1,
            c.handed.snapshots.push (held.add c.handed.pool x).2⟩ }, [], none⟩
  /-- There is no snapshot to add to. -/
  | idle {position : Nat} {x : Sample} (lacks : c.handed.snapshots[position]? = none) :
      Step c (.extend position x) ⟨c, [], none⟩

/-- **An act does one of six things**, if the slots of a dataset can be addressed. -/
theorem act_step {c : Console} (hp : c.collector.poisoned = false)
    (hc : 1 ≤ c.collector.config.capacity)
    (ha : Snapshot.Addressable c.collector.config.capacity) (a : Act) : Step c a (c.act a) := by
  cases a with
  | record series host x =>
    rw [Console.act, Console.record, Collector.record, hp, if_neg Bool.false_ne_true]
    cases hf : c.collector.find? series host with
    | some current => exact .next hf
    | none =>
      cases hl : c.collector.reachedLimit? with
      | some limit =>
        obtain ⟨limited, full⟩ := reachedLimit?_eq_some_iff.mp hl
        exact .refused hf limited full
      | none =>
        simp only [recordFirst, Stock.stored_eq, Snapshot.fresh_eq_ok c.handed.pool series host hc ha]
        exact .first hf (reachedLimit?_eq_none_iff.mp hl)
  | read reading =>
    obtain ⟨found, stored, hfind⟩ := reading.find_eq_locked c.collector
    rw [locked, hp, if_neg Bool.false_ne_true] at hfind
    rw [Console.act, Console.read, hfind]
    simp only [foldl_keep]
    exact .read hfind stored
  | extend position x =>
    rw [Console.act, Console.extend]
    cases hh : c.handed.snapshots[position]? with
    | none =>
      rw [Lineage.add_of_none hh]
      exact .idle hh
    | some held =>
      rw [Lineage.add_of_some hh]
      exact .extend hh

/-! ### Runs keep the stock tidy -/

variable {c : Console}

theorem collector_read (c : Console) (reading : Reading) :
    (c.read reading).1.collector = c.collector := by
  rw [Console.read]
  split <;> rfl

theorem tidy_act (h : c.collector.stock.Tidy) (a : Act) : (c.act a).console.collector.stock.Tidy := by
  cases a with
  | record series host x => exact Collector.tidy_record h c.handed.pool series host x
  | read reading =>
    show (c.read reading).1.collector.stock.Tidy
    rw [collector_read]
    exact h
  | extend position x => exact h

/-- **The maps of a collector and the number kept beside them agree** at every moment of every run. -/
theorem tidy_after (h : c.collector.stock.Tidy) (acts : List Act) :
    (c.after acts).collector.stock.Tidy := by
  induction acts generalizing c with
  | nil => exact h
  | cons a rest ih => exact ih (tidy_act h a)

end Console

end MetricStore
