import Mathlib.Data.List.Induction
import Mathlib.Data.List.SplitBy
import MetricStore.Replay
import MetricStore.Retention.Runs

/-!
Retention sample by sample is retention by runs.

A history that goes on either begins a run or prolongs the one it ends in (`runs_concat_of_change`,
`runs_concat_of_repeat`), so the run of a replay is the last run of its history (`run_ofHistory`).
Main statement:

* `Replay.samples_ofHistory`: a replay keeps the samples that `Retention.kept` describes, the ends
  of the runs since the latest long one, as many as the capacity allows.

Design notes: a capacity of one has no room for both ends of a run, and every run is a long one;
only the latest sample is kept (`kept_one`).  All other capacities share one argument about what is
remembered before the capacity cuts it (`remembered`).
-/

namespace MetricStore

namespace Retention

/-! ### Ends of lists -/

theorem lastOf_concat {α : Type} {n : Nat} (hn : 1 ≤ n) (xs : List α) (x : α) :
    lastOf n (xs ++ [x]) = lastOf (n - 1) xs ++ [x] := by
  rw [lastOf, lastOf, List.length_append, List.length_singleton,
    List.drop_append_of_le_length (by omega)]
  congr 2
  omega

theorem lastOf_lastOf {α : Type} {m n : Nat} (h : m ≤ n) (xs : List α) :
    lastOf m (lastOf n xs) = lastOf m xs := by
  rw [lastOf, length_lastOf, lastOf, lastOf, List.drop_drop]
  congr 1
  omega

theorem lastOf_of_length_le {α : Type} {n : Nat} {xs : List α} (h : xs.length ≤ n) :
    lastOf n xs = xs := by
  rw [lastOf, Nat.sub_eq_zero_of_le h, List.drop_zero]

/-- The last element alone depends on the last element alone. -/
theorem lastOf_congr {α : Type} {n : Nat} (hn : n ≤ 1) {xs ys : List α}
    (h : xs.getLast? = ys.getLast?) : lastOf n xs = lastOf n ys := by
  have hlast : ∀ zs : List α, lastOf n zs = lastOf n zs.getLast?.toList := by
    intro zs
    rcases List.eq_nil_or_concat' zs with rfl | ⟨front, z, rfl⟩
    · rfl
    · rw [List.getLast?_concat]
      rcases Nat.le_one_iff_eq_zero_or_eq_one.mp hn with rfl | rfl
      · rw [lastOf, lastOf, Nat.sub_zero, List.drop_length, Nat.sub_zero, List.drop_length]
      · rw [lastOf_concat (Nat.le_refl 1), Nat.sub_self, lastOf, Nat.sub_zero, List.drop_length]
        rfl
  rw [hlast xs, hlast ys, h]

/-- A push keeps the latest samples, one fewer than the capacity. -/
theorem apply_push {capacity : Nat} (hc : 1 ≤ capacity) {kept : List Sample}
    (hk : kept.length ≤ capacity) (since : Int64) (x : Sample) :
    apply capacity since x kept .push = lastOf (capacity - 1) kept ++ [x] := by
  rw [apply, lastOf]
  split
  · rw [show kept.length - (capacity - 1) = 0 by omega, List.drop_zero]
  · rw [show kept.length - (capacity - 1) = 1 by omega]

theorem fromLast_concat {α : Type} (p : α → Bool) (xs : List α) (x : α) :
    fromLast p (xs ++ [x]) = if p x then [x] else fromLast p xs ++ [x] := by
  induction xs with
  | nil => simp [fromLast]
  | cons y rest ih =>
    rw [List.cons_append, fromLast, ih, fromLast, List.any_append]
    by_cases hx : p x = true
    · simp [hx]
    · by_cases hr : rest.any p = true
      · simp [hx, hr]
      · simp [hx, hr]

theorem ends_concat {run : List Sample} (h : run ≠ []) (x : Sample) :
    ends (run ++ [x]) = [run.head h, x] := by
  cases run with
  | nil => exact absurd rfl h
  | cons first rest =>
    cases rest with
    | nil => rfl
    | cons second rest => simp [ends]

/-! ### The run that a history ends in -/

/-- The latest run of a history. -/
def lastRun (history : List Sample) : List Sample := (runs history).getLast?.getD []

/-- The runs before it. -/
def earlierRuns (history : List Sample) : List (List Sample) := (runs history).dropLast

/-- The sample repeats the value that the history ends with. -/
def Repeats (history : List Sample) (x : Sample) : Prop :=
  ∃ last ∈ history.getLast?, last.value = x.value

theorem Repeats.ne_nil {history : List Sample} {x : Sample} (h : Repeats history x) :
    history ≠ [] := by
  rintro rfl
  obtain ⟨last, hlast, -⟩ := h
  exact Option.not_mem_none last hlast

theorem runs_eq_nil_iff {history : List Sample} : runs history = [] ↔ history = [] :=
  List.splitBy_eq_nil

theorem runs_eq {history : List Sample} (h : history ≠ []) :
    runs history = earlierRuns history ++ [lastRun history] := by
  have hne : runs history ≠ [] := fun hnil => h (runs_eq_nil_iff.mp hnil)
  rw [earlierRuns, lastRun, List.getLast?_eq_some_getLast hne]
  exact (List.dropLast_concat_getLast hne).symm

theorem lastRun_mem {history : List Sample} (h : history ≠ []) :
    lastRun history ∈ runs history := by
  rw [runs_eq h]
  exact List.mem_append_right _ (List.mem_singleton_self _)

theorem lastRun_ne_nil {history : List Sample} (h : history ≠ []) : lastRun history ≠ [] :=
  List.ne_nil_of_mem_splitBy (lastRun_mem h)

theorem flatten_runs (history : List Sample) : (runs history).flatten = history :=
  List.flatten_splitBy _ history

theorem getLast?_lastRun (history : List Sample) :
    (lastRun history).getLast? = history.getLast? := by
  by_cases h : history = []
  · subst h
    rfl
  · have hflat := flatten_runs history
    rw [runs_eq h, List.flatten_append, List.flatten_singleton] at hflat
    have hlast := congrArg List.getLast? hflat
    rw [List.getLast?_append, List.getLast?_eq_some_getLast (lastRun_ne_nil h)] at hlast
    rw [← hlast, List.getLast?_eq_some_getLast (lastRun_ne_nil h)]
    rfl

/-- All values of the last run are the latest value. -/
theorem value_of_mem_lastRun {history : List Sample} {x y : Sample} (hx : Repeats history x)
    (hy : y ∈ lastRun history) : y.value = x.value := by
  have hne := hx.ne_nil
  obtain ⟨last, hlast, hvalue⟩ := hx
  have hchain : (lastRun history).IsChain fun a b => (a.value == b.value) = true :=
    List.isChain_of_mem_splitBy (lastRun_mem hne)
  have hpairs : (lastRun history).Pairwise fun a b => a.value = b.value := by
    refine List.IsChain.pairwise (hchain.imp fun a b hab => ?_)
    exact beq_iff_eq.mp hab
  rw [← getLast?_lastRun] at hlast
  obtain ⟨front, hfront⟩ := List.getLast?_eq_some_iff.mp hlast
  rw [hfront] at hy hpairs
  rcases List.mem_append.mp hy with hy | hy
  · exact ((List.pairwise_append.mp hpairs).2.2 y hy last (List.mem_singleton_self _)).trans hvalue
  · rw [List.mem_singleton.mp hy]
    exact hvalue

theorem runs_concat_of_change {history : List Sample} {x : Sample} (hx : ¬ Repeats history x) :
    runs (history ++ [x]) = runs history ++ [[x]] := by
  refine List.splitBy_append_cons [] fun last hlast => ?_
  rw [beq_eq_false_iff_ne]
  intro hvalue
  exact hx ⟨last, hlast, hvalue⟩

theorem runs_concat_of_repeat {history : List Sample} {x : Sample} (hx : Repeats history x) :
    runs (history ++ [x]) = earlierRuns history ++ [lastRun history ++ [x]] := by
  have hne := hx.ne_nil
  obtain ⟨last, hlast, hvalue⟩ := hx
  have hflat := flatten_runs history
  have hnil : [] ∉ runs history := List.nil_notMem_splitBy _ history
  have hchains : ∀ run ∈ runs history, run.IsChain fun a b => (a.value == b.value) = true :=
    fun _ => List.isChain_of_mem_splitBy
  have hbreaks := List.isChain_getLast_head_splitBy (fun a b : Sample => a.value == b.value) history
  change (runs history).IsChain _ at hbreaks
  rw [runs_eq hne] at hflat hnil hchains hbreaks
  rw [List.flatten_append, List.flatten_singleton] at hflat
  refine List.splitBy_eq_iff.mpr ⟨?_, ?_, ?_, ?_⟩
  · rw [List.flatten_append, List.flatten_singleton, ← List.append_assoc, hflat]
  · -- no run is empty
    simp only [List.mem_append, List.mem_singleton, not_or] at hnil ⊢
    exact ⟨hnil.1, by simp⟩
  · -- in every run each value repeats the one before
    intro run hrun
    rcases List.mem_append.mp hrun with hrun | hrun
    · exact hchains run (List.mem_append_left _ hrun)
    · rw [List.mem_singleton.mp hrun]
      refine List.isChain_append.mpr ⟨hchains _ (by simp), List.isChain_singleton x, ?_⟩
      rw [getLast?_lastRun]
      intro a ha b hb
      obtain rfl : last = a := Option.some.inj (hlast.symm.trans ha)
      obtain rfl : x = b := by simpa using hb
      exact beq_iff_eq.mpr hvalue
  · -- the prolonged run begins with the same sample
    rw [List.isChain_append] at hbreaks ⊢
    refine ⟨hbreaks.1, List.isChain_singleton _, fun a ha b hb => ?_⟩
    obtain rfl : lastRun history ++ [x] = b := by simpa using hb
    obtain ⟨h₁, h₂, hbreak⟩ := hbreaks.2.2 a ha (lastRun history) (by simp)
    refine ⟨h₁, by simp, ?_⟩
    rwa [List.head_append_of_ne_nil h₂]

theorem lastRun_concat_of_change {history : List Sample} {x : Sample} (hx : ¬ Repeats history x) :
    lastRun (history ++ [x]) = [x] := by
  rw [lastRun, runs_concat_of_change hx, List.getLast?_concat]
  rfl

theorem lastRun_concat_of_repeat {history : List Sample} {x : Sample} (hx : Repeats history x) :
    lastRun (history ++ [x]) = lastRun history ++ [x] := by
  rw [lastRun, runs_concat_of_repeat hx, List.getLast?_concat]
  rfl

/-! ### What is remembered -/

/-- The ends of the runs since the latest long one, before the capacity cuts them. -/
def remembered (capacity : Nat) (history : List Sample) : List Sample :=
  (fromLast (fun run => 2 * capacity - 1 ≤ run.length) (runs history)).flatMap ends

theorem kept_eq (capacity : Nat) (history : List Sample) :
    kept capacity history = lastOf capacity (remembered capacity history) := rfl

variable {capacity : Nat} {history : List Sample} {x : Sample}

/-- Each run is a long one for a capacity of one, so only the latest sample is kept. -/
theorem kept_one (history : List Sample) : kept 1 history = history.getLast?.toList := by
  by_cases h : history = []
  · subst h
    rfl
  · have hne := lastRun_ne_nil h
    have hlong : decide (2 * 1 - 1 ≤ (lastRun history).length) = true :=
      decide_eq_true (List.length_pos_iff.mpr hne)
    rw [kept_eq, remembered, runs_eq h, fromLast_concat, if_pos hlong, List.flatMap_singleton,
      ← getLast?_lastRun]
    -- the later end of a run is its latest sample
    obtain ⟨front, last, hrun⟩ := List.eq_nil_or_concat' (lastRun history) |>.resolve_left hne
    rw [hrun, List.getLast?_concat]
    by_cases hfront : front = []
    · subst hfront
      rfl
    · rw [ends_concat hfront]
      rfl

/-- A change is remembered beside what was remembered before. -/
theorem remembered_concat_of_change (hc : 2 ≤ capacity) (hx : ¬ Repeats history x) :
    remembered capacity (history ++ [x]) = remembered capacity history ++ [x] := by
  have hshort : ¬ decide (2 * capacity - 1 ≤ [x].length) = true := by
    rw [decide_eq_true_iff, List.length_singleton]
    omega
  rw [remembered, runs_concat_of_change hx, fromLast_concat, if_neg hshort, List.flatMap_append,
    List.flatMap_singleton]
  rfl

/-- The first repeat is remembered beside what was remembered before. -/
theorem remembered_concat_of_second (hc : 2 ≤ capacity) (hx : Repeats history x)
    (hrun : (lastRun history).length = 1) :
    remembered capacity (history ++ [x]) = remembered capacity history ++ [x] := by
  have hne := hx.ne_nil
  obtain ⟨first, hfirst⟩ := List.length_eq_one_iff.mp hrun
  have hbefore : ¬ decide (2 * capacity - 1 ≤ [first].length) = true := by
    rw [decide_eq_true_iff, List.length_singleton]
    omega
  have hafter : ¬ decide (2 * capacity - 1 ≤ [first, x].length) = true := by
    rw [decide_eq_true_iff, List.length_cons, List.length_singleton]
    omega
  rw [remembered, remembered, runs_concat_of_repeat hx, runs_eq hne, hfirst, List.singleton_append,
    fromLast_concat, fromLast_concat, if_neg hbefore, if_neg hafter, List.flatMap_append,
    List.flatMap_append, List.append_assoc]
  rfl

/-- Further repeats take the place of the latest sample, as long as the run is short. -/
theorem remembered_concat_of_short (hx : Repeats history x) (hrun : 2 ≤ (lastRun history).length)
    (hshort : (lastRun history).length + 1 < 2 * capacity - 1) :
    ∃ before last, remembered capacity history = before ++ [last] ∧
      remembered capacity (history ++ [x]) = before ++ [x] := by
  have hne := hx.ne_nil
  obtain ⟨front, last, hlast⟩ :=
    (List.eq_nil_or_concat' (lastRun history)).resolve_left (lastRun_ne_nil hne)
  have hfront : front ≠ [] := by
    rintro rfl
    rw [hlast] at hrun
    exact absurd hrun (by simp)
  have hbefore : ¬ decide (2 * capacity - 1 ≤ (lastRun history).length) = true := by
    rw [decide_eq_true_iff]
    omega
  have hafter : ¬ decide (2 * capacity - 1 ≤ (lastRun history ++ [x]).length) = true := by
    rw [decide_eq_true_iff, List.length_append, List.length_singleton]
    omega
  refine ⟨(fromLast (fun run => 2 * capacity - 1 ≤ run.length) (earlierRuns history)).flatMap ends
    ++ [front.head hfront], last, ?_, ?_⟩
  · rw [remembered, runs_eq hne, fromLast_concat, if_neg hbefore, List.flatMap_append,
      List.flatMap_singleton, hlast, ends_concat hfront, List.append_assoc]
    rfl
  · rw [remembered, runs_concat_of_repeat hx, fromLast_concat, if_neg hafter, List.flatMap_append,
      List.flatMap_singleton, ends_concat (lastRun_ne_nil hne), List.append_assoc]
    simp only [hlast, List.head_append_of_ne_nil hfront]
    rfl

/-- A long run makes everything before it forgotten. -/
theorem remembered_concat_of_long (hx : Repeats history x)
    (hlong : 2 * capacity - 1 ≤ (lastRun history).length + 1) :
    remembered capacity (history ++ [x]) = [(lastRun history).head (lastRun_ne_nil hx.ne_nil), x] := by
  have hp : decide (2 * capacity - 1 ≤ (lastRun history ++ [x]).length) = true := by
    rw [decide_eq_true_iff, List.length_append, List.length_singleton]
    exact hlong
  rw [remembered, runs_concat_of_repeat hx, fromLast_concat, if_pos hp, List.flatMap_singleton,
    ends_concat (lastRun_ne_nil hx.ne_nil)]

end Retention

namespace Replay

open Retention

variable {capacity : Nat} {history : List Sample}

theorem getLast?_ofHistory (capacity : Nat) (history : List Sample) :
    (ofHistory capacity history).samples.getLast? = history.getLast? := by
  induction history using List.reverseRecOn with
  | nil => rfl
  | append_singleton history x _ =>
    rw [ofHistory_concat, List.getLast?_concat]
    exact getLast?_apply capacity _ x _ _

theorem isChange_eq_false_iff (capacity : Nat) (history : List Sample) (x : Sample) :
    (ofHistory capacity history).isChange x = false ↔ Repeats history x := by
  rw [isChange, getLast?_ofHistory, Repeats]
  cases history.getLast? with
  | none => simp
  | some last => simp

theorem isChange_of_change {x : Sample} (hx : ¬ Repeats history x) :
    (ofHistory capacity history).isChange x = true := by
  rw [← Bool.not_eq_false, isChange_eq_false_iff]
  exact hx

/-- The run of a replay is the last run of its history. -/
theorem run_ofHistory (capacity : Nat) (history : List Sample) :
    (ofHistory capacity history).run =
      ⟨((lastRun history).head?.map Sample.time).getD (-1), (lastRun history).length⟩ := by
  induction history using List.reverseRecOn with
  | nil => rfl
  | append_singleton history x ih =>
    rw [ofHistory_concat]
    show ((ofHistory capacity history).run.observe x.time
      ((ofHistory capacity history).isChange x)) = _
    by_cases hx : Repeats history x
    · rw [(isChange_eq_false_iff capacity history x).mpr hx, lastRun_concat_of_repeat hx, ih,
        List.head?_append_of_ne_nil _ (lastRun_ne_nil hx.ne_nil), List.length_append]
      rfl
    · rw [isChange_of_change hx, lastRun_concat_of_change hx]
      rfl

/-- The first sample of the last run, put together from the run that a replay kept. -/
theorem head_lastRun {x : Sample} (hx : Repeats history x) :
    (lastRun history).head (lastRun_ne_nil hx.ne_nil) =
      ⟨(ofHistory capacity history).run.since, x.value⟩ := by
  have hne := lastRun_ne_nil hx.ne_nil
  have hvalue := value_of_mem_lastRun hx (List.head_mem hne)
  rw [run_ofHistory, List.head?_eq_some_head hne, ← hvalue]
  rfl

theorem samples_add_of_change (hc : 1 ≤ capacity) {x : Sample} (hx : ¬ Repeats history x) :
    ((ofHistory capacity history).add capacity x).samples =
      lastOf (capacity - 1) (ofHistory capacity history).samples ++ [x] := by
  rw [add, isChange_of_change hx]
  exact apply_push hc (length_samples_le hc history) x.time x

theorem samples_add_of_repeat {x : Sample} (hx : Repeats history x) :
    ((ofHistory capacity history).add capacity x).samples =
      apply capacity (ofHistory capacity history).run.since x (ofHistory capacity history).samples
        (action capacity ⟨(ofHistory capacity history).run.since, (lastRun history).length + 1⟩
          false) := by
  have hcount : (lastRun history).length = (ofHistory capacity history).run.count := by
    rw [run_ofHistory]
  rw [add, (isChange_eq_false_iff capacity history x).mpr hx, hcount]
  rfl

/-- With room for two, one more sample takes what the closed form keeps to what it keeps next. -/
theorem samples_add_eq_kept (hc : 2 ≤ capacity) (x : Sample)
    (hkept : (ofHistory capacity history).samples = kept capacity history) :
    ((ofHistory capacity history).add capacity x).samples = kept capacity (history ++ [x]) := by
  have hpush : lastOf (capacity - 1) (kept capacity history) ++ [x] =
      lastOf capacity (remembered capacity history ++ [x]) := by
    rw [lastOf_concat (by omega), kept_eq, lastOf_lastOf (Nat.sub_le capacity 1)]
  by_cases hx : Repeats history x
  · rw [samples_add_of_repeat hx, kept_eq]
    have hpos : 0 < (lastRun history).length := List.length_pos_iff.mpr (lastRun_ne_nil hx.ne_nil)
    by_cases hsecond : (lastRun history).length = 1
    · -- the first repeat is pushed
      have haction : action capacity ⟨(ofHistory capacity history).run.since,
          (lastRun history).length + 1⟩ false = .push := by
        rw [action, hsecond]
        rfl
      rw [haction, apply_push (by omega) (length_samples_le (by omega) history), hkept, hpush,
        remembered_concat_of_second hc hx hsecond]
    · have hthird : ((lastRun history).length + 1 == 2) = false := by
        rw [beq_eq_false_iff_ne]
        omega
      by_cases hlong : 2 * capacity - 1 ≤ (lastRun history).length + 1
      · -- the run has become a long one, or prolongs one
        have haction : action capacity ⟨(ofHistory capacity history).run.since,
            (lastRun history).length + 1⟩ false = .collapse := by
          rw [action, hthird, if_neg (by decide), if_pos ⟨hlong, hc⟩]
        rw [haction, remembered_concat_of_long hx hlong, lastOf_of_length_le hc, head_lastRun hx]
        rfl
      · -- the sample takes the place of the latest one
        have haction : action capacity ⟨(ofHistory capacity history).run.since,
            (lastRun history).length + 1⟩ false = .merge := by
          rw [action, hthird, if_neg (by decide), if_neg (fun h => hlong h.1)]
        obtain ⟨before, last, hbefore, hafter⟩ :=
          remembered_concat_of_short hx (by omega) (Nat.lt_of_not_le hlong)
        rw [haction, apply, hkept, kept_eq, hbefore, hafter, lastOf_concat (by omega),
          lastOf_concat (by omega), List.dropLast_concat]
  · rw [samples_add_of_change (by omega) hx, hkept, hpush, kept_eq,
      remembered_concat_of_change hc hx]

/-- **Retention by runs.**  What the rules leave of a history, sample by sample, are the ends of
its runs since the latest long one, as many as the capacity allows. -/
theorem samples_ofHistory (hc : 1 ≤ capacity) (history : List Sample) :
    (ofHistory capacity history).samples = kept capacity history := by
  by_cases hone : capacity = 1
  · subst hone
    have hlen := length_samples_le hc history
    rw [kept_one, ← getLast?_ofHistory 1 history]
    cases hs : (ofHistory 1 history).samples with
    | nil => rfl
    | cons x rest =>
      rw [hs, List.length_cons] at hlen
      obtain rfl : rest = [] := List.length_eq_zero_iff.mp (by omega)
      rfl
  · induction history using List.reverseRecOn with
    | nil => exact (lastOf_of_length_le (Nat.zero_le capacity)).symm
    | append_singleton history x ih =>
      rw [ofHistory_concat]
      exact samples_add_eq_kept (by omega) x ih

end Replay

end MetricStore
