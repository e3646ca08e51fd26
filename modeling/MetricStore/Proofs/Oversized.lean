import MetricStore.Proofs.Acts
import MetricStore.Proofs.Answers
import MetricStore.Proofs.Selections

/-!
Collectors whose datasets cannot be allocated.

If the slots of one dataset are more than can be addressed, the first sample that the limit has room for
fails while the lock is held.  Nothing has changed by then and nothing was told, but from then on the
lock is refused to everybody; so such a collector has no dataset at any time, and there is never more to
it than whether its lock is poisoned (`bare`).  Main statement:

* `oversized_capacity_leaves_nothing`: what comes of any acts on such a collector, and what it answers
  to its readers after them.
-/

namespace MetricStore

/-- At least one sample is kept, twice as many can be counted in 64 bits, and their slots are more than
can be addressed. -/
structure Oversized (capacity : Nat) : Prop where
  pos : 1 ≤ capacity
  counted : capacity < 0x8000000000000000
  unaddressable : ¬ Snapshot.Addressable capacity

theorem Snapshot.fresh_eq_error {capacity : Nat} (h : Oversized capacity) (p : Pool) (series : Series)
    (host : String) : fresh p series host capacity = .error .unaddressable := by
  have hpos := h.pos
  rw [fresh, if_neg (by omega), if_neg h.unaddressable]

/-! ### Readers of a collector without datasets -/

namespace Collector

/-- The texts asked for, none of them with anything found. -/
def unanswered (queries : List Query) : List (String × List View) :=
  (queries.map Query.series).eraseDups.map fun text => (text, [])

/-- All that readers learn is that there is nothing, and this in a certain way.  A batch in which no text
is a series is answered whatever this way is. -/
structure ReadsAs (way : (α : Type) → α → Except Failure α) (c : Collector) : Prop where
  get : ∀ series host, c.get series host = way _ none
  select : ∀ series, c.select series = way _ []
  selectOn : ∀ series hosts, c.selectOn series hosts = way _ []
  selectAll : c.selectAll = way _ []
  seriesList : c.seriesList = way _ []
  hosts : c.hosts = way _ []
  size : c.size = way _ 0
  isEmpty : c.isEmpty = way _ true
  answer_some : ∀ p queries, (∃ q ∈ queries, (Series.parse q.series).isOk) →
    c.answer p queries = way _ (unanswered queries)
  answer_none : ∀ p queries, (∀ q ∈ queries, ¬ (Series.parse q.series).isOk) →
    c.answer p queries = .ok (unanswered queries)

theorem grouped_nothing {queries : List Query} :
    grouped (fun _ => []) queries = unanswered queries := by
  simp [grouped, unanswered]

variable {c : Collector}

theorem select_of_empty (h : c.stock = .empty) (series : Series) :
    c.select series = c.locked [] := by
  rw [select, h]
  exact congrArg c.locked List.mergeSort_nil

theorem selectOn_of_empty (h : c.stock = .empty) (series : Series) (hosts : List String) :
    c.selectOn series hosts = c.locked [] := by
  rw [selectOn, h]
  exact congrArg c.locked List.mergeSort_nil

/-- A query takes the lock if its text is a series, and finds nothing. -/
theorem selectFor_of_empty (h : c.stock = .empty) (q : Query) :
    c.selectFor q = if (Series.parse q.series).isOk then c.locked [] else .ok [] := by
  rw [selectFor]
  cases Series.parse q.series with
  | error fault => rfl
  | ok series =>
    cases q.hosts with
    | none => exact select_of_empty h series
    | some hosts => exact selectOn_of_empty h series hosts

theorem answer_of_found_nothing {p : Pool} {queries : List Query}
    (hall : ∀ q ∈ queries, c.selectFor q = .ok []) :
    c.answer p queries = .ok (unanswered queries) := by
  rw [answer_eq_ok hall, List.map_nil, grouped_nothing]

theorem readsAs_locked (h : c.stock = .empty) : c.ReadsAs fun _ => c.locked where
  get series host := by rw [get, find?, h]; rfl
  select := select_of_empty h
  selectOn := selectOn_of_empty h
  selectAll := by
    rw [selectAll, datasets, h]
    exact congrArg c.locked List.mergeSort_nil
  seriesList := by
    rw [seriesList, h]
    exact congrArg c.locked List.mergeSort_nil
  hosts := by
    rw [hosts, h]
    exact congrArg c.locked List.mergeSort_nil
  size := by rw [size, h]; rfl
  isEmpty := by
    rw [isEmpty, size, h, locked, locked]
    split <;> rfl
  answer_some p queries hsome := by
    obtain ⟨q, hq, hparse⟩ := hsome
    by_cases hp : c.poisoned
    · have hlocked : c.locked ([] : List Snapshot) = .error .poisoned := if_pos hp
      rw [locked, if_pos hp]
      refine answer_eq_error (fun q' _ => ?_) ⟨q, hq, ?_⟩
      · rw [selectFor_of_empty h, hlocked]
        split
        · exact .inr rfl
        · exact .inl ⟨[], rfl⟩
      · rw [selectFor_of_empty h, if_pos hparse, hlocked]
    · rw [locked, if_neg hp]
      refine answer_of_found_nothing fun q' _ => ?_
      rw [selectFor_of_empty h, locked, if_neg hp, ite_self]
  answer_none p queries hnone := by
    refine answer_of_found_nothing fun q hq => ?_
    rw [selectFor_of_empty h, if_neg (hnone q hq)]

/-! ### Samples that begin a dataset -/

variable {p : Pool} {series : Series} {host : String}

theorem record_of_full (hp : c.poisoned = false) (absent : c.find? series host = none) {limit : Nat}
    (hl : c.reachedLimit? = some limit) (x : Sample) :
    c.record p series host x =
      ⟨p, c, .count .rejections :: c.tell (.rejected series.text host limit),
        .error (.full c.stock.count limit)⟩ := by
  rw [record, hp, if_neg Bool.false_ne_true, absent, hl]

theorem record_of_oversized (ho : Oversized c.config.capacity) (hp : c.poisoned = false)
    (absent : c.find? series host = none) (hl : c.reachedLimit? = none) (x : Sample) :
    c.record p series host x = ⟨p, { c with poisoned := true }, [], .error .unaddressable⟩ := by
  rw [record, hp, if_neg Bool.false_ne_true, absent, hl]
  simp only [recordFirst, Snapshot.fresh_eq_error ho]

end Collector

namespace Console

open Collector

/-! ### What acts do to a bare console -/

/-- No dataset, and nothing handed out. -/
def bare (config : Config) (poisoned : Bool) : Console := ⟨⟨config, .empty, poisoned⟩, Lineage.empty⟩

/-- How many samples are recorded by acts. -/
def recorded (acts : List Act) : Nat := (acts.filterMap Act.asks).length

variable {config : Config} {poisoned : Bool} {a : Act}

theorem readsAs_bare_sane (config : Config) :
    (bare config false).collector.ReadsAs fun _ => .ok :=
  @readsAs_locked (bare config false).collector rfl

theorem readsAs_bare_poisoned (config : Config) :
    (bare config true).collector.ReadsAs fun _ _ => .error .poisoned :=
  @readsAs_locked (bare config true).collector rfl

/-- There is nothing to hand out and nothing that a holder could add to. -/
theorem act_bare_of_asks_eq_none (h : a.asks = none) :
    (bare config poisoned).act a = ⟨bare config poisoned, [], none⟩ := by
  cases a with
  | record series host x => exact nomatch h
  | read reading =>
    obtain ⟨found, stored, hfind⟩ := reading.find_eq_locked (bare config poisoned).collector
    obtain rfl : found = [] := List.eq_nil_iff_forall_not_mem.mpr fun s hs =>
      List.not_mem_nil (stored s hs)
    rw [act, read, hfind]
    cases poisoned <;> rfl
  | extend position x =>
    rw [act, extend, Lineage.add_of_none rfl]

/-- Only a sample asks for a dataset. -/
theorem Act.eq_record_of_asks {key : Series × String} (h : a.asks = some key) :
    ∃ x, a = .record key.1 key.2 x := by
  cases a with
  | record series host x =>
    obtain rfl := Option.some.inj h
    exact ⟨x, rfl⟩
  | read reading => exact nomatch h
  | extend position x => exact nomatch h

variable (series : Series) (host : String) (x : Sample)

theorem act_bare_poisoned (config : Config) :
    (bare config true).act (.record series host x) =
      ⟨bare config true, [], some (.error .poisoned)⟩ := rfl

/-- No dataset at all is allowed, so the limit is reached before anything is allocated. -/
theorem act_bare_full (hfull : config.maxSeries = some 0) :
    ((bare config false).act (.record series host x)).console = bare config false ∧
      ((bare config false).act (.record series host x)).result = some (.error (.full 0 0)) := by
  have hlimit : (bare config false).collector.reachedLimit? = some 0 :=
    reachedLimit?_eq_some_iff.mpr ⟨hfull, Nat.le_refl 0⟩
  rw [act, record, record_of_full rfl rfl hlimit]
  exact ⟨rfl, rfl⟩

/-- The allocation fails before the dataset is put in place and before anything is told. -/
theorem act_bare_oversized (ho : Oversized config.capacity) (hroom : config.maxSeries ≠ some 0) :
    (bare config false).act (.record series host x) =
      ⟨bare config true, [], some (.error .unaddressable)⟩ := by
  have hlimit : (bare config false).collector.reachedLimit? = none := by
    refine reachedLimit?_eq_none_iff.mpr fun limit hlimit => Nat.pos_of_ne_zero ?_
    rintro rfl
    exact hroom hlimit
  rw [act, record, record_of_oversized ho rfl rfl hlimit]
  rfl

/-! ### Runs -/

theorem after_cons (c : Console) (a : Act) (rest : List Act) :
    c.after (a :: rest) = (c.act a).console.after rest := rfl

theorem log_cons (c : Console) (a : Act) (rest : List Act) :
    c.log (a :: rest) = (c.act a).log ++ (c.act a).console.log rest := by
  rw [log, outcomes, List.flatMap_cons, ← log]

/-- A console that no act changes sees each act by itself. -/
theorem run_of_stays {c : Console} (h : ∀ a, (c.act a).console = c) (acts : List Act) :
    c.after acts = c ∧ c.outcomes acts = acts.map c.act := by
  induction acts with
  | nil => exact ⟨rfl, rfl⟩
  | cons a rest ih =>
    obtain ⟨hafter, houtcomes⟩ := ih
    refine ⟨?_, ?_⟩
    · rw [after, List.foldl_cons, ← after, h, hafter]
    · rw [outcomes, h, houtcomes, List.map_cons]

/-- If it also gives every sample the same result, there are as many of these as samples. -/
theorem results_of_stays {c : Console} (h : ∀ a, (c.act a).console = c) {result : Except Failure Unit}
    (hresult : ∀ a, (c.act a).result = a.asks.map fun _ => result) (acts : List Act) :
    c.results acts = List.replicate (recorded acts) result := by
  have hresults : (Outcome.result ∘ c.act) = fun a => a.asks.map fun _ => result := funext hresult
  rw [results, (run_of_stays h acts).2, List.filterMap_map, hresults, ← List.map_filterMap,
    List.map_const', recorded]

theorem run_full (hfull : config.maxSeries = some 0) (acts : List Act) :
    (bare config false).after acts = bare config false ∧
      (bare config false).results acts = List.replicate (recorded acts) (.error (.full 0 0)) := by
  have hact : ∀ a, ((bare config false).act a).console = bare config false ∧
      ((bare config false).act a).result = a.asks.map fun _ => .error (.full 0 0) := by
    intro a
    cases ha : a.asks with
    | none => exact act_bare_of_asks_eq_none ha ▸ ⟨rfl, rfl⟩
    | some key =>
      obtain ⟨x, rfl⟩ := Act.eq_record_of_asks ha
      exact act_bare_full key.1 key.2 x hfull
  exact ⟨(run_of_stays (fun a => (hact a).1) acts).1,
    results_of_stays (fun a => (hact a).1) (fun a => (hact a).2) acts⟩

theorem run_poisoned (config : Config) (acts : List Act) :
    (bare config true).after acts = bare config true ∧ (bare config true).log acts = [] ∧
      (bare config true).results acts = List.replicate (recorded acts) (.error .poisoned) := by
  have hact : ∀ a, (bare config true).act a =
      ⟨bare config true, [], a.asks.map fun _ => .error .poisoned⟩ := by
    intro a
    cases ha : a.asks with
    | none => exact act_bare_of_asks_eq_none ha
    | some key =>
      obtain ⟨x, rfl⟩ := Act.eq_record_of_asks ha
      exact act_bare_poisoned key.1 key.2 x config
  obtain ⟨hafter, houtcomes⟩ := run_of_stays (fun a => by rw [hact a]) acts
  refine ⟨hafter, ?_, results_of_stays (fun a => by rw [hact a]) (fun a => by rw [hact a]) acts⟩
  rw [log, houtcomes, List.flatMap_map]
  exact List.flatMap_eq_nil_iff.mpr fun a _ => by rw [hact a]

/-- Until a sample is recorded nothing happens; the first one poisons the lock. -/
theorem run_oversized (ho : Oversized config.capacity) (hroom : config.maxSeries ≠ some 0)
    (acts : List Act) :
    (bare config false).log acts = [] ∧
      (recorded acts = 0 → (bare config false).after acts = bare config false) ∧
      ∀ n, recorded acts = n + 1 →
        (bare config false).after acts = bare config true ∧
          (bare config false).results acts =
            .error .unaddressable :: List.replicate n (.error .poisoned) := by
  induction acts with
  | nil => exact ⟨rfl, fun _ => rfl, fun n hn => nomatch hn⟩
  | cons a rest ih =>
    rw [log_cons, results_cons, after_cons]
    cases ha : a.asks with
    | none =>
      rw [act_bare_of_asks_eq_none ha, recorded, List.filterMap_cons_none ha]
      exact ih
    | some key =>
      obtain ⟨x, rfl⟩ := Act.eq_record_of_asks ha
      obtain ⟨hafter, hlog, hresults⟩ := run_poisoned config rest
      rw [act_bare_oversized key.1 key.2 x ho hroom, recorded, List.filterMap_cons_some ha,
        List.length_cons, ← recorded, hafter, hlog, hresults]
      refine ⟨rfl, nofun, ?_⟩
      rintro n hn
      obtain rfl := Nat.succ.inj hn
      exact ⟨rfl, rfl⟩

/-- **An oversized capacity leaves nothing half made.**  At no time is there a dataset or anything handed
out, and the configuration can always be read.  If no dataset is allowed, every sample is refused for the
limit and readers see an empty collector.  Otherwise nothing is ever told; until a sample is recorded
readers see an empty collector; the first sample breaks off, and from then on everybody who takes the
lock is refused it. -/
theorem oversized_capacity_leaves_nothing (ho : Oversized config.capacity) :
    ∃ c, start config = .ok c ∧ ∀ acts : List Act,
      (c.after acts).collector.config = config ∧
      (c.after acts).collector.stock = .empty ∧
      (c.after acts).handed.snapshots = #[] ∧
      (config.maxSeries = some 0 →
        c.results acts = List.replicate (recorded acts) (.error (.full 0 0)) ∧
        (c.after acts).collector.ReadsAs fun _ => .ok) ∧
      (config.maxSeries ≠ some 0 →
        c.log acts = [] ∧
        (recorded acts = 0 → (c.after acts).collector.ReadsAs fun _ => .ok) ∧
        ∀ n, recorded acts = n + 1 →
          c.results acts = .error .unaddressable :: List.replicate n (.error .poisoned) ∧
          (c.after acts).collector.ReadsAs fun _ _ => .error .poisoned) := by
  refine ⟨bare config false, start_eq_ok ho.pos, ?_⟩
  intro acts
  have hbare : ∃ poisoned, (bare config false).after acts = bare config poisoned := by
    by_cases hfull : config.maxSeries = some 0
    · exact ⟨false, (run_full hfull acts).1⟩
    · obtain ⟨-, hidle, hfirst⟩ := run_oversized ho hfull acts
      cases hn : recorded acts with
      | zero => exact ⟨false, hidle hn⟩
      | succ n => exact ⟨true, (hfirst n hn).1⟩
  obtain ⟨poisoned, hafter⟩ := hbare
  refine ⟨by rw [hafter]; rfl, by rw [hafter]; rfl, by rw [hafter]; rfl, ?_, ?_⟩
  · intro hfull
    obtain ⟨hsame, hresults⟩ := run_full hfull acts
    rw [hsame]
    exact ⟨hresults, readsAs_bare_sane config⟩
  · intro hroom
    obtain ⟨hlog, hidle, hfirst⟩ := run_oversized ho hroom acts
    refine ⟨hlog, ?_, ?_⟩
    · intro hn
      rw [hidle hn]
      exact readsAs_bare_sane config
    · intro n hn
      obtain ⟨hlocked, hresults⟩ := hfirst n hn
      rw [hlocked]
      exact ⟨hresults, readsAs_bare_poisoned config⟩

/-- Two to the power of sixty samples for each dataset. -/
def boundless : Config := { capacity := 0x1000000000000000 }

/-- Somebody looks at the collector, and then two samples are recorded. -/
def hopeful : List Act :=
  [.read .selectAll, .record (Series.ofName "heat") "server" ⟨1, 5⟩,
    .record (Series.ofName "heat") "server" ⟨2, 6⟩]

/-- The first of two samples breaks off and the second is refused the lock, which a batch only takes if
one of its texts is a series; with no dataset allowed both are refused for the limit. -/
theorem oversized_capacity_leaves_nothing_boundless :
    Oversized boundless.capacity ∧
      (∃ c, start boundless = .ok c ∧
        c.results hopeful = [.error .unaddressable, .error .poisoned] ∧ c.log hopeful = [] ∧
        (c.after (hopeful.take 1)).collector.size = .ok 0 ∧
        (c.after hopeful).collector.size = .error .poisoned ∧
        (c.after hopeful).collector.answer Pool.empty [⟨":", none⟩] = .ok [(":", [])] ∧
        (c.after hopeful).collector.answer Pool.empty [⟨":", none⟩, ⟨"heat", none⟩] =
          .error .poisoned) ∧
      ∃ c, start { boundless with maxSeries := some 0 } = .ok c ∧
        c.results hopeful = [.error (.full 0 0), .error (.full 0 0)] ∧
        (c.after hopeful).collector.size = .ok 0 := by
  have ho : Oversized boundless.capacity := ⟨by decide, by decide, by decide⟩
  refine ⟨ho, ?_, ?_⟩
  · obtain ⟨c, hstart, h⟩ := oversized_capacity_leaves_nothing ho
    obtain ⟨-, -, -, -, hbefore⟩ := h (hopeful.take 1)
    obtain ⟨-, -, -, -, hafter⟩ := h hopeful
    obtain ⟨-, hidle, -⟩ := hbefore nofun
    obtain ⟨hlog, -, hfirst⟩ := hafter nofun
    obtain ⟨hresults, hreads⟩ := hfirst 1 rfl
    refine ⟨c, hstart, hresults, hlog, (hidle rfl).size, hreads.size, ?_, ?_⟩
    · exact hreads.answer_none _ _ (by decide)
    · exact hreads.answer_some _ _ (by decide)
  · obtain ⟨c, hstart, h⟩ :=
      @oversized_capacity_leaves_nothing { boundless with maxSeries := some 0 } ho
    obtain ⟨-, -, -, hfull, -⟩ := h hopeful
    obtain ⟨hresults, hreads⟩ := hfull rfl
    exact ⟨c, hstart, hresults, hreads.size⟩

end Console

end MetricStore
