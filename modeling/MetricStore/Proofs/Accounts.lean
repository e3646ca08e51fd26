import Mathlib.Algebra.Ring.Nat
import MetricStore.Proofs.Recording
import MetricStore.Proofs.Staleness

/-!
What the signals of a collector add up to.

A sample that is recorded ends in one of four ways: it prolongs a dataset, with or without moving its
slots, it begins one, or it is refused.  Each of them emits its own signals, so that counters, gauge
and events can be compared with the results of the samples, the datasets in place and the epochs of
their tapes (`Telemetry.Accounts`).  The books are kept by every act (`Keeps.accounts`) and so by every
run.  Main statement:

* `signals_account_for_samples`: at every moment the signals emitted so far account for all that
  was recorded.
-/

namespace MetricStore

/-! ### Signals put together -/

namespace Telemetry

def Event.isCompacted : Event → Bool
  | .compacted _ _ _ => true
  | _ => false

def Event.isRejected : Event → Bool
  | .rejected _ _ _ => true
  | _ => false

/-- The signals that tell of a new dataset: the gauge is set, and the listener hears of it. -/
def Signal.isBeginning : Signal → Bool
  | .datasets _ => true
  | .event (.created _ _ _) => true
  | _ => false

/-- What is emitted when datasets begin one after the other. -/
def beginnings (capacity : Nat) (keys : List (Series × String)) : List Signal :=
  keys.zipIdx.flatMap fun (key, i) =>
    [.datasets (i + 1), .event (.created key.1.text key.2 capacity)]

theorem total_append (counter : Counter) (log more : List Signal) :
    total counter (log ++ more) = total counter log + total counter more :=
  List.count_append

theorem gaugeValues_append (log more : List Signal) :
    gaugeValues (log ++ more) = gaugeValues log ++ gaugeValues more :=
  List.filterMap_append

theorem events_append (log more : List Signal) :
    events (log ++ more) = events log ++ events more :=
  List.filterMap_append

theorem beginnings_concat (capacity : Nat) (keys : List (Series × String)) (series : Series)
    (host : String) :
    beginnings capacity (keys ++ [(series, host)]) =
      beginnings capacity keys ++
        [.datasets (keys.length + 1), .event (.created series.text host capacity)] := by
  rw [beginnings, List.zipIdx_append, List.flatMap_append, ← beginnings]
  simp

/-- The gauge is set for the beginnings alone. -/
theorem gaugeValues_filter (log : List Signal) :
    gaugeValues (log.filter Signal.isBeginning) = gaugeValues log := by
  rw [gaugeValues, List.filterMap_filter]
  -- a signal that is no beginning sets no gauge
  refine List.filterMap_congr fun signal _ => ?_
  cases signal with
  | count counter => rfl
  | datasets number => rfl
  | event e => cases e <;> rfl

theorem gaugeValues_beginnings (capacity : Nat) (keys : List (Series × String)) :
    gaugeValues (beginnings capacity keys) = List.range' 1 keys.length := by
  induction keys using List.reverseRecOn with
  | nil => rfl
  | append_singleton keys key ih =>
    rw [beginnings_concat, gaugeValues_append, ih, List.length_append, List.length_singleton,
      List.range'_1_concat, Nat.add_comm]
    rfl

end Telemetry

/-! ### What is accounted for -/

namespace Console

/-- The result of a sample that was taken. -/
def isTaken : Except Failure Unit → Bool
  | .ok () => true
  | .error _ => false

/-- The result of a sample that was refused for the limit. -/
def isRefused : Except Failure Unit → Bool
  | .error (.full _ _) => true
  | _ => false

/-- The sample moves the slots it is written behind: the tape of its dataset is in another epoch then.
A tape that was not there before counts as a blank one. -/
def compacts (c : Console) : Act → Bool
  | .record series host x =>
    let next := (c.act (.record series host x)).console
    (next.collector.find? series host).any fun s =>
      (next.handed.pool.tape s.span.tape).epoch != (c.handed.pool.tape s.span.tape).epoch
  | _ => false

/-- How many of the samples recorded moved the slots they were written behind. -/
def compactions (c : Console) : List Act → Nat
  | [] => 0
  | a :: rest => (if c.compacts a then 1 else 0) + compactions (c.act a).console rest

theorem compactions_append (c : Console) (earlier later : List Act) :
    c.compactions (earlier ++ later) =
      c.compactions earlier + (c.after earlier).compactions later := by
  induction earlier generalizing c with
  | nil => exact (Nat.zero_add _).symm
  | cons a rest ih =>
    rw [List.cons_append, compactions, ih, compactions, Nat.add_assoc]
    rfl

end Console

namespace Telemetry

open Console

/-- A log accounts for the results of some samples, for how many of them moved the slots they were
written behind, and for the datasets that they made, which began in the order `begun`. -/
structure Accounts (capacity : Nat) (log : List Signal) (results : List (Except Failure Unit))
    (compactions : Nat) (begun : List (Series × String)) (datasets : List Snapshot) : Prop where
  ingested_taken : total .ingested log = results.countP isTaken
  ingested_held : total .ingested log = (datasets.map (·.summary.count)).sum
  rejections_refused : total .rejections log = results.countP isRefused
  rejections_told : total .rejections log = (events log).countP Event.isRejected
  /-- The gauge is set and the listener told once for each dataset that began, and for no other. -/
  begun_told : log.filter Signal.isBeginning = beginnings capacity begun
  /-- What began is what is in place. -/
  begun_held : (datasets.map Snapshot.key).Perm begun
  compactions_made : total .compactions log = compactions
  compactions_told : total .compactions log = (events log).countP Event.isCompacted

namespace Accounts

variable {capacity n : Nat} {log : List Signal} {results : List (Except Failure Unit)}
  {begun : List (Series × String)} {datasets : List Snapshot}

theorem empty (capacity : Nat) : Accounts capacity [] [] 0 [] [] :=
  ⟨rfl, rfl, rfl, rfl, rfl, .nil, rfl, rfl⟩

theorem length_begun (h : Accounts capacity log results n begun datasets) :
    begun.length = datasets.length := by
  rw [← h.begun_held.length_eq, List.length_map]

theorem gauge (h : Accounts capacity log results n begun datasets) :
    gaugeValues log = List.range' 1 datasets.length := by
  rw [← gaugeValues_filter, h.begun_told, gaugeValues_beginnings, h.length_begun]

/-- What is emitted for one more result is accounted for by itself. -/
theorem append (h : Accounts capacity log results n begun datasets) {more : List Signal}
    {fresh : List (Except Failure Unit)} {moved : Nat} {begun' : List (Series × String)}
    {later : List Snapshot}
    (taken : total .ingested more = fresh.countP isTaken)
    (held : (later.map (·.summary.count)).sum =
      (datasets.map (·.summary.count)).sum + total .ingested more)
    (refused : total .rejections more = fresh.countP isRefused)
    (rejected : total .rejections more = (events more).countP Event.isRejected)
    (begins : beginnings capacity begun' = beginnings capacity begun ++ more.filter Signal.isBeginning)
    (keys : (later.map Snapshot.key).Perm begun')
    (made : total .compactions more = moved)
    (told : total .compactions more = (events more).countP Event.isCompacted) :
    Accounts capacity (log ++ more) (results ++ fresh) (n + moved) begun' later := by
  refine ⟨?_, ?_, ?_, ?_, ?_, keys, ?_, ?_⟩
  · rw [total_append, List.countP_append, h.ingested_taken, taken]
  · rw [total_append, held, h.ingested_held]
  · rw [total_append, List.countP_append, h.rejections_refused, refused]
  · rw [total_append, events_append, List.countP_append, h.rejections_told, rejected]
  · rw [List.filter_append, begins, h.begun_told]
  · rw [total_append, h.compactions_made, made]
  · rw [total_append, events_append, List.countP_append, h.compactions_told, told]

/-- One more sample in one of the datasets. -/
theorem next (h : Accounts capacity log results n begun datasets) {later : List Snapshot}
    (hkeys : later.map Snapshot.key = datasets.map Snapshot.key)
    (hsum : (later.map (·.summary.count)).sum = (datasets.map (·.summary.count)).sum + 1)
    (compacted : Bool) (text host : String) (epoch : Nat) :
    Accounts capacity
      (log ++ .count .ingested ::
        if compacted then [.count .compactions, .event (.compacted text host epoch)] else [])
      (results ++ [.ok ()]) (n + if compacted then 1 else 0) begun later := by
  have hheld := h.begun_held
  rw [← hkeys] at hheld
  have hnone := (List.append_nil (beginnings capacity begun)).symm
  cases compacted with
  | false => exact h.append rfl hsum rfl rfl hnone hheld rfl rfl
  | true => exact h.append rfl hsum rfl rfl hnone hheld rfl rfl

/-- The first sample of one more dataset. -/
theorem first (h : Accounts capacity log results n begun datasets) {s : Snapshot}
    {later : List Snapshot} (hlater : later.Perm (datasets ++ [s])) (hcount : s.summary.count = 1) :
    Accounts capacity
      (log ++ [.count .ingested, .datasets (begun.length + 1),
        .event (.created s.series.text s.host capacity)])
      (results ++ [.ok ()]) n (begun ++ [s.key]) later := by
  refine h.append rfl ?_ rfl rfl ?_ ?_ rfl rfl
  · rw [(hlater.map _).sum_nat, List.map_append, List.sum_append, List.map_singleton,
      List.sum_singleton, hcount]
    rfl
  · rw [Snapshot.key, beginnings_concat]
    rfl
  · refine (hlater.map Snapshot.key).trans ?_
    rw [List.map_append]
    exact h.begun_held.append_right _

theorem refused (h : Accounts capacity log results n begun datasets) (text host : String)
    (count limit : Nat) :
    Accounts capacity (log ++ [.count .rejections, .event (.rejected text host limit)])
      (results ++ [.error (.full count limit)]) n begun datasets :=
  h.append rfl rfl rfl rfl (List.append_nil _).symm h.begun_held rfl rfl

theorem idle (h : Accounts capacity log results n begun datasets) :
    Accounts capacity (log ++ []) (results ++ []) n begun datasets :=
  h.append rfl rfl rfl rfl (List.append_nil _).symm h.begun_held rfl rfl

end Accounts

end Telemetry

/-! ### What the datasets hold -/

namespace Collector

variable {c : Collector} {series : Series} {host : String} {current : Snapshot}

/-- A replacement takes place where the snapshot of this dataset is, and nowhere else. -/
theorem datasets_replace (h : c.stock.Tidy) (found : c.find? series host = some current)
    (next : Snapshot) :
    ∃ earlier later, c.datasets = earlier ++ current :: later ∧
      (c.replace series host next).datasets = earlier ++ next :: later := by
  obtain ⟨hmem, hkey⟩ := mem_of_find? h found
  obtain ⟨earlier, later, hsplit, hmap⟩ := List.exists_split_of_nodup_map h.nodup_keys hmem
  refine ⟨earlier, later, hsplit, ?_⟩
  rw [datasets, replace, h.snapshots_replace, hmap, if_pos (Snapshot.isOf_iff.mpr hkey)]
  intro s hne
  exact if_neg fun hof => hne ((Snapshot.isOf_iff.mp hof).trans hkey.symm)

/-- A replacement changes a sum over the snapshots in place by what it changes of its own. -/
theorem sum_replace (f : Snapshot → Nat) (h : c.stock.Tidy)
    (found : c.find? series host = some current) (next : Snapshot) :
    ((c.replace series host next).datasets.map f).sum + f current =
      (c.datasets.map f).sum + f next := by
  obtain ⟨earlier, later, hbefore, hafter⟩ := datasets_replace h found next
  rw [hbefore, hafter, List.map_append, List.map_append, List.sum_append, List.sum_append,
    List.map_cons, List.map_cons, List.sum_cons, List.sum_cons]
  omega

end Collector

/-! ### Compactions -/

/-- A tape that is not there yet has never been compacted. -/
theorem Pool.epoch_tape_size (p : Pool) : (p.tape p.tapes.size).epoch = 0 := by
  rw [Pool.tape, Array.getD_eq_getD_getElem?, Array.getElem?_eq_none (Nat.le_refl _)]
  rfl

/-- A span was compacted by its making exactly if its own tape is in another epoch since. -/
theorem Span.Made.hasCompacted_iff_own {capacity : Nat} {p : Pool} {s : Span} {latest : Sample}
    {m : Move} {made : Pool × Span} (h : s.Made p latest m made) (hs : s.Sits capacity p)
    (hm : m.Allowed capacity s.length) :
    made.2.hasCompacted = true ↔ (made.1.tape made.2.tape).epoch ≠ (p.tape made.2.tape).epoch := by
  cases h with
  | replaced => exact Made.replaced.hasCompacted_iff hs.1
  | inPlace may => exact (Made.inPlace may).hasCompacted_iff hs.1
  | @forked dropped x _ mayNot fork =>
    -- a fork is on a tape of its own, which has room for its first sample
    have hstop := hs.2.stop_le
    have hdropped := hm.1
    have hroom : ((p.tape s.tape).fork (s.start + dropped) (s.length - dropped)).isFull = false :=
      Tape.isFull_fork (by omega) (Nat.le_trans (Nat.sub_le _ _) hs.2.length_le_keep) hs.2.size_pos
    rw [hasCompacted, seen_grown, epoch_grown, bne_self_eq_false, tape_grown, tape_add_size,
      Pool.epoch_tape_size, fork, Tape.epoch_push, hroom, if_neg Bool.false_ne_true]
    exact iff_of_false Bool.false_ne_true (fun h => h rfl)

namespace Snapshot

variable {p : Pool} {s : Snapshot}

/-- The next sample of a dataset has compacted exactly if its own tape is in another epoch since. -/
theorem hasCompacted_add (h : s.span.Sits s.capacity p) (x : Sample) :
    (s.add p x).2.span.hasCompacted =
      (((s.add p x).1.tape (s.add p x).2.span.tape).epoch !=
        (p.tape (s.add p x).2.span.tape).epoch) := by
  rw [Bool.eq_iff_iff, bne_iff_ne]
  exact (s.made_add p x).hasCompacted_iff_own h (moveFor_allowed h x)

/-- It has if and only if it moved the slots of the tape that the snapshot before is on. -/
theorem hasCompacted_add_iff (h : s.span.Sits s.capacity p) (x : Sample) :
    (s.add p x).2.span.hasCompacted = true ↔
      ∃ y, (s.add p x).1.tape s.span.tape = (p.tape s.span.tape).compact.write y :=
  ((s.made_add p x).hasCompacted_iff h.1).trans
    (Lineage.compacts_iff (l := ⟨p, #[s]⟩) h.1 0 x).symm

end Snapshot

namespace Console

open Collector Telemetry

variable {config : Config} {alone : Series × String → Prop} {acts : List Act} {c : Console}
  {series : Series} {host : String} {x : Sample} {s : Snapshot} {o : Outcome}

theorem compacts_of_find?_eq_some (ho : c.act (.record series host x) = o)
    (hs : o.console.collector.find? series host = some s) :
    c.compacts (.record series host x) =
      ((o.console.handed.pool.tape s.span.tape).epoch != (c.handed.pool.tape s.span.tape).epoch) := by
  subst ho
  simp only [compacts, hs, Option.any_some]

theorem compacts_of_find?_eq_none (ho : c.act (.record series host x) = o)
    (hs : o.console.collector.find? series host = none) :
    c.compacts (.record series host x) = false := by
  subst ho
  simp only [compacts, hs, Option.any_none]

/-- A dataset begins on a blank tape, which its first sample leaves alone. -/
theorem compacts_first (htidy : c.collector.stock.Tidy)
    (absent : c.collector.find? series host = none)
    (ho : c.act (.record series host x) = o) {capacity : Nat}
    (hcollector : o.console.collector =
      c.collector.insert series host (Snapshot.opening c.handed.pool series host capacity x).2)
    (hpool : o.console.handed.pool = (Snapshot.opening c.handed.pool series host capacity x).1) :
    c.compacts (.record series host x) = false := by
  have found : o.console.collector.find? series host =
      some (Snapshot.opening c.handed.pool series host capacity x).2 := by
    rw [hcollector]
    exact htidy.find?_insert_self absent rfl
  rw [compacts_of_find?_eq_some ho found, hpool, bne_eq_false_iff_eq, Snapshot.tape_opening]
  exact (Pool.epoch_tape_size c.handed.pool).symm

namespace Keeps

theorem tell_eq (h : c.Keeps config alone acts) (hl : config.listening = true) (e : Event) :
    c.collector.tell e = [.event e] := by
  rw [Collector.tell, h.config_eq, hl, if_pos rfl]

/-- What is emitted for the next sample of a dataset. -/
theorem log_recordNext (h : c.Keeps config alone acts) (hl : config.listening = true)
    (series : Series) (host : String) (current : Snapshot) (x : Sample) :
    (c.collector.recordNext c.handed.pool series host current x).log =
      .count .ingested :: if (current.add c.handed.pool x).2.span.hasCompacted then
        [.count .compactions, .event (.compacted series.text host
          ((current.add c.handed.pool x).1.tape (current.add c.handed.pool x).2.span.tape).epoch)]
      else [] := by
  simp only [recordNext, h.tell_eq hl]

theorem compacts_next (h : c.Keeps config alone acts) {current : Snapshot}
    (found : c.collector.find? series host = some current)
    (ho : c.act (.record series host x) = o)
    (hcollector : o.console.collector =
      c.collector.replace series host (current.add c.handed.pool x).2)
    (hpool : o.console.handed.pool = (current.add c.handed.pool x).1) :
    c.compacts (.record series host x) = (current.add c.handed.pool x).2.span.hasCompacted := by
  obtain ⟨hmem, -⟩ := h.mem_of_find? found
  rw [Snapshot.hasCompacted_add (h.tracks current hmem).sound.sits', ← hpool]
  refine compacts_of_find?_eq_some ho ?_
  rw [hcollector]
  exact find?_replace_self found _

/-- A sample moves the slots it is written behind if and only if they are those of the snapshot in
place before. -/
theorem compacts_iff (h : c.Keeps config alone acts) (hc : 1 ≤ config.capacity)
    (ha : Snapshot.Addressable config.capacity) (series : Series) (host : String) (x : Sample) :
    c.compacts (.record series host x) = true ↔
      ∃ s y, c.collector.find? series host = some s ∧
        (c.act (.record series host x)).console.handed.pool.tape s.span.tape =
          (c.handed.pool.tape s.span.tape).compact.write y := by
  have hs := h.act_step hc ha (.record series host x)
  generalize ho : c.act (.record series host x) = o at hs
  cases hs with
  | @next _ _ _ current found =>
    rw [h.compacts_next found ho rfl rfl, Snapshot.hasCompacted_add_iff
      (h.tracks current (h.mem_of_find? found).1).sound.sits', found]
    simp
  | refused absent limited full =>
    rw [compacts_of_find?_eq_none ho absent, absent]
    simp
  | first absent room =>
    rw [compacts_first h.tidy absent ho rfl rfl, absent]
    simp

/-- The books are kept by every act. -/
theorem accounts (h : c.Keeps config alone acts) (hl : config.listening = true)
    {log : List Signal} {results : List (Except Failure Unit)} {n : Nat}
    (hbooks : Accounts config.capacity log results n (admitted config.maxSeries acts)
      c.collector.datasets) {a : Act} (hs : Step c a o) (ho : c.act a = o) :
    Accounts config.capacity (log ++ o.log) (results ++ o.result.toList)
      (n + if c.compacts a then 1 else 0) (admitted config.maxSeries (acts ++ [a]))
      o.console.collector.datasets := by
  cases hs with
  | @next series host x current found =>
    have hnext : (current.add c.handed.pool x).2.key = (series, host) := (h.mem_of_find? found).2
    -- of all the datasets in place, only this one has taken in one sample more
    have hsum : ((c.collector.replace series host (current.add c.handed.pool x).2).datasets.map
          (·.summary.count)).sum + current.summary.count =
        (c.collector.datasets.map (·.summary.count)).sum + (current.summary.count + 1) :=
      sum_replace (·.summary.count) h.tidy found (current.add c.handed.pool x).2
    have hasked := admitted_subset_asked (h.mem_admitted_of_find? found)
    rw [h.compacts_next found ho rfl rfl,
      admitted_concat_of_asked_eq (asked_concat_of_mem rfl hasked)]
    show Accounts _ (_ ++ (c.collector.recordNext c.handed.pool series host current x).log) _ _ _ _
    rw [h.log_recordNext hl]
    exact hbooks.next (keys_replace h.tidy hnext) (by omega) _ _ _ _
  | refused absent limited full =>
    rw [h.config_eq] at limited
    rw [h.count_eq] at full ⊢
    rw [limited] at full hbooks ⊢
    rw [compacts_of_find?_eq_none ho absent, h.tell_eq hl, (admitted_concat_of_full full _).1]
    exact hbooks.refused _ _ _ _
  | @first series host x absent room =>
    have hnew := h.find?_eq_none_iff.mp absent
    have hperm := h.tidy.snapshots_insert absent
      (Snapshot.opening c.handed.pool series host config.capacity x).2
    rw [h.config_eq, h.count_eq] at room
    rw [compacts_first h.tidy absent ho rfl rfl, h.tell_eq hl, h.config_eq, h.count_eq,
      admitted_concat_of_room room rfl hnew]
    exact hbooks.first hperm rfl
  | read finds stored =>
    rw [admitted_concat_of_asked_eq (asked_concat_of_none rfl)]
    exact hbooks.idle
  | extend holds =>
    rw [admitted_concat_of_asked_eq (asked_concat_of_none rfl)]
    exact hbooks.idle
  | idle lacks =>
    rw [admitted_concat_of_asked_eq (asked_concat_of_none rfl)]
    exact hbooks.idle

end Keeps

/-! ### Runs -/

theorem log_concat (c : Console) (acts : List Act) (a : Act) :
    c.log (acts ++ [a]) = c.log acts ++ ((c.after acts).act a).log := by
  rw [log_append]
  exact congrArg _ (List.append_nil _)

theorem results_concat (c : Console) (acts : List Act) (a : Act) :
    c.results (acts ++ [a]) = c.results acts ++ ((c.after acts).act a).result.toList := by
  rw [results_append]
  rfl

theorem compactions_concat (c : Console) (acts : List Act) (a : Act) :
    c.compactions (acts ++ [a]) =
      c.compactions acts + if (c.after acts).compacts a then 1 else 0 := by
  rw [compactions_append]
  rfl

theorem accounts_after (hc : 1 ≤ config.capacity) (ha : Snapshot.Addressable config.capacity)
    (hl : config.listening = true) (acts : List Act) :
    Accounts config.capacity ((fresh config).log acts) ((fresh config).results acts)
      ((fresh config).compactions acts) (admitted config.maxSeries acts)
      ((fresh config).after acts).collector.datasets := by
  induction acts using List.reverseRecOn with
  | nil =>
    rw [admitted_nil]
    exact .empty config.capacity
  | append_singleton acts a ih =>
    have hkeeps := keeps_after hc ha acts
    rw [log_concat, results_concat, compactions_concat, after_append]
    exact hkeeps.accounts hl ih (hkeeps.act_step hc ha a) rfl

/-- **The signals account for every sample.**  At every moment of a collector that is listened to, the
counters agree with the results of all samples, with what the datasets in place have taken in and with
the tapes compacted; the gauge went up by one with each dataset, each of which the listener heard of
once; and only samples that are recorded emit anything.  A sample compacts exactly if it moves the
slots of the snapshot in place before. -/
theorem signals_account_for_samples (hc : 1 ≤ config.capacity)
    (ha : Snapshot.Addressable config.capacity) (hl : config.listening = true) :
    ∃ c, start config = .ok c ∧ ∀ acts : List Act,
      (c.after acts).collector.size = .ok (c.after acts).collector.datasets.length ∧
      gaugeValues (c.log acts) = List.range' 1 (c.after acts).collector.datasets.length ∧
      ((c.after acts).collector.datasets.map Snapshot.key).Nodup ∧
      Accounts config.capacity (c.log acts) (c.results acts) (c.compactions acts)
        (admitted config.maxSeries acts) (c.after acts).collector.datasets ∧
      (∀ a, a.asks = none → ((c.after acts).act a).log = []) ∧
      ∀ series host x, (c.after acts).compacts (.record series host x) = true ↔
        ∃ s y, (c.after acts).collector.find? series host = some s ∧
          ((c.after acts).act (.record series host x)).console.handed.pool.tape s.span.tape =
            ((c.after acts).handed.pool.tape s.span.tape).compact.write y := by
  refine ⟨fresh config, start_eq_ok hc, ?_⟩
  intro acts
  have hkeeps := keeps_after hc ha acts
  have hbooks := accounts_after hc ha hl acts
  refine ⟨?_, hbooks.gauge, hkeeps.tidy.nodup_keys, hbooks, ?_, hkeeps.compacts_iff hc ha⟩
  · rw [size, locked, hkeeps.sane, if_neg Bool.false_ne_true, hkeeps.tidy.count_eq]
    rfl
  · intro a hasks
    cases a with
    | record series host x => cases hasks
    | read reading => rfl
    | extend position x => rfl

/-- Two samples of room for one dataset, with a listener. -/
def heard : Config := { capacity := 2, maxSeries := some 1, listening := true }

/-- A dataset takes five samples, the last of which moves its slots; a holder adds to its snapshot, so
that the next sample is written on a fork; and one more dataset is refused. -/
def overtaken : List Act :=
  [.record (Series.ofName "load") "server" ⟨1, 1⟩, .record (Series.ofName "load") "server" ⟨2, 2⟩,
    .record (Series.ofName "load") "server" ⟨3, 3⟩, .record (Series.ofName "load") "server" ⟨4, 4⟩,
    .record (Series.ofName "load") "server" ⟨5, 5⟩, .read (.get (Series.ofName "load") "server"),
    .extend 0 ⟨6, 6⟩, .record (Series.ofName "load") "server" ⟨7, 7⟩,
    .record (Series.ofName "wind") "server" ⟨8, 8⟩]

/-- Six samples were taken and one refused, one dataset began, and its slots were moved once. -/
theorem signals_account_for_samples_overtaken :
    (1 ≤ heard.capacity ∧ Snapshot.Addressable heard.capacity ∧ heard.listening = true) ∧
      ∃ c, start heard = .ok c ∧ total .ingested (c.log overtaken) = 6 ∧
        total .rejections (c.log overtaken) = 1 ∧ gaugeValues (c.log overtaken) = [1] ∧
        total .compactions (c.log overtaken) = 1 ∧
        (∃ s y, (c.after (overtaken.take 4)).collector.find? (Series.ofName "load") "server" =
            some s ∧
          (c.after (overtaken.take 5)).handed.pool.tape s.span.tape =
            ((c.after (overtaken.take 4)).handed.pool.tape s.span.tape).compact.write y) ∧
        ((c.after (overtaken.take 6)).act (.extend 0 ⟨6, 6⟩)).log = [] := by
  refine ⟨⟨by decide, by decide, rfl⟩, ?_⟩
  obtain ⟨c, hstart, h⟩ := @signals_account_for_samples heard (by decide) (by decide) rfl
  have hfresh := hstart
  rw [start_eq_ok (by decide)] at hfresh
  cases hfresh
  -- each total is read off the books, as a count of results or of datasets
  obtain ⟨-, hgauge, -, hbooks, -, -⟩ := h overtaken
  obtain ⟨-, -, -, -, -, hcompacts⟩ := h (overtaken.take 4)
  obtain ⟨-, -, -, -, hsilent, -⟩ := h (overtaken.take 6)
  refine ⟨_, hstart, ?_, ?_, ?_, ?_, ?_, hsilent _ rfl⟩
  · exact hbooks.ingested_taken.trans (by decide +kernel)
  · exact hbooks.rejections_refused.trans (by decide +kernel)
  · exact hgauge.trans (by decide +kernel)
  · exact hbooks.compactions_made.trans (by decide +kernel)
  · exact (hcompacts _ _ _).mp (by decide)

end Console

end MetricStore
