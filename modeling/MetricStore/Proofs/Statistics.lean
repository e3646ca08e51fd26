import Mathlib.Algebra.Ring.Int.Defs
import Mathlib.Algebra.Order.BigOperators.Group.List
import MetricStore.Checked.Numbers
import MetricStore.Proofs.InTurn
import MetricStore.Proofs.Staleness

/-!
Statistics lose nothing.

A snapshot keeps a few samples of its history, and whether a sample changes the value it only sees
against the latest of these.  But the latest sample is always kept, so changes are counted just as
often as the whole history begins a run.  Fewer than 2⁶⁴ values of 64 bits have a sum of less than
128 bits (`natAbs_valueSum_le`), so it is never held at a bound; and a quotient truncated towards
zero stays between integers that the exact one is between (`le_tdiv`, `tdiv_le`).  Main statement:

* `in_turn_statistics_lossless`: after the samples of a history have been added in turn, the statistics
  and the run are those of the whole history, and on the way there no number exceeded its bound.
-/

namespace MetricStore

/-! ### Sums and quotients -/

/-- The sum of all values of a history. -/
def valueSum (history : List Sample) : Int := (history.map fun x => x.value.toInt).sum

section

variable {history : List Sample} {bound a n : Int}

theorem valueSum_concat (history : List Sample) (x : Sample) :
    valueSum (history ++ [x]) = valueSum history + x.value.toInt := by
  rw [valueSum, List.map_append, List.sum_append, ← valueSum, List.map_singleton, List.sum_singleton]

theorem mul_le_valueSum (h : ∀ x ∈ history, bound ≤ x.value.toInt) :
    history.length * bound ≤ valueSum history := by
  have hsum := List.card_nsmul_le_sum (history.map fun x => x.value.toInt) bound
    (List.forall_mem_map.mpr h)
  rwa [List.length_map, Int.nsmul_eq_mul] at hsum

theorem valueSum_le_mul (h : ∀ x ∈ history, x.value.toInt ≤ bound) :
    valueSum history ≤ history.length * bound := by
  have hsum := List.sum_le_card_nsmul (history.map fun x => x.value.toInt) bound
    (List.forall_mem_map.mpr h)
  rwa [List.length_map, Int.nsmul_eq_mul] at hsum

/-- A sum grows by 2⁶³ at most with each value. -/
theorem natAbs_valueSum_le (history : List Sample) :
    (valueSum history).natAbs ≤ history.length * 0x8000000000000000 := by
  have hleast := @mul_le_valueSum history (-0x8000000000000000) fun x _ => x.value.le_toInt
  have hgreatest := @valueSum_le_mul history 0x8000000000000000 fun x _ =>
    Int.le_of_lt x.value.toInt_lt
  omega

theorem le_tdiv (hn : 0 < n) (h : n * bound ≤ a) : bound ≤ a.tdiv n := by
  rw [Int.mul_comm] at h
  obtain ha | ha := Int.le_total 0 a
  · rw [Int.tdiv_eq_ediv_of_nonneg ha]
    exact (Int.le_ediv_iff_mul_le hn).mpr h
  · -- below zero, truncation rounds upwards
    have hquot : (-a).tdiv n ≤ -bound := by
      rw [Int.tdiv_eq_ediv_of_nonneg (by omega)]
      exact Int.ediv_le_of_le_mul hn (by rw [Int.neg_mul]; omega)
    rw [Int.neg_tdiv] at hquot
    omega

theorem tdiv_le (hn : 0 < n) (h : a ≤ n * bound) : a.tdiv n ≤ bound := by
  have hquot : -bound ≤ (-a).tdiv n := le_tdiv hn (by rw [Int.mul_neg]; omega)
  rw [Int.neg_tdiv] at hquot
  omega

end

/-! ### Extreme values -/

/-- The value occurs in the history, and none there is before it. -/
def IsExtreme (le : Int64 → Int64 → Prop) (m : Int64) (history : List Sample) : Prop :=
  (∃ x ∈ history, x.value = m) ∧ ∀ x ∈ history, le m x.value

/-- Of two values the one that is before the other is picked, and any before the one to start with. -/
structure Picks (le : Int64 → Int64 → Prop) (pick : Int64 → Int64 → Int64) (start : Int64) : Prop where
  refl : ∀ a, le a a
  trans : ∀ a b c, le a b → le b c → le a c
  pick_cases : ∀ a b, pick a b = a ∧ le a b ∨ pick a b = b ∧ le b a
  pick_start : ∀ a, pick start a = a

theorem picks_min : Picks (· ≤ ·) Min.min Int64.maxValue where
  refl _ := Std.le_refl _
  trans _ _ _ := Std.le_trans
  pick_cases a b := by
    show (if a ≤ b then a else b) = a ∧ a ≤ b ∨ (if a ≤ b then a else b) = b ∧ b ≤ a
    split
    · next h => exact .inl ⟨rfl, h⟩
    · next h => exact .inr ⟨rfl, Std.le_of_not_ge h⟩
  pick_start a := Std.le_antisymm Std.min_le_right
    (Std.le_min_iff.mpr ⟨Int64.le_maxValue a, Std.le_refl a⟩)

theorem picks_max : Picks (fun a b => b ≤ a) Max.max Int64.minValue where
  refl _ := Std.le_refl _
  trans _ _ _ hba hcb := Std.le_trans hcb hba
  pick_cases a b := by
    show (if a ≤ b then b else a) = a ∧ b ≤ a ∨ (if a ≤ b then b else a) = b ∧ a ≤ b
    split
    · next h => exact .inr ⟨rfl, h⟩
    · next h => exact .inl ⟨rfl, Std.le_of_not_ge h⟩
  pick_start a := if_pos (Int64.minValue_le a)

section

variable {le : Int64 → Int64 → Prop} {pick : Int64 → Int64 → Int64} {start m : Int64}
  {history : List Sample}

/-- One more value is picked or passed over. -/
theorem IsExtreme.concat (hp : Picks le pick start) (h : IsExtreme le m history) (x : Sample) :
    IsExtreme le (pick m x.value) (history ++ [x]) := by
  obtain ⟨⟨y, hy, hvalue⟩, hall⟩ := h
  obtain ⟨hpick, hle⟩ | ⟨hpick, hle⟩ := hp.pick_cases m x.value
  · rw [hpick]
    refine ⟨⟨y, List.mem_append_left _ hy, hvalue⟩, List.forall_mem_append.mpr ⟨hall, ?_⟩⟩
    exact List.forall_mem_singleton.mpr hle
  · rw [hpick]
    refine ⟨⟨x, List.mem_append_right _ (List.mem_singleton_self x), rfl⟩,
      List.forall_mem_append.mpr ⟨?_, ?_⟩⟩
    · intro z hz
      exact hp.trans _ _ _ hle (hall z hz)
    · exact List.forall_mem_singleton.mpr (hp.refl _)

end

/-! ### The statistics of a history -/

namespace Replay

open Retention

variable {history : List Sample}

theorem summary_concat (capacity : Nat) (history : List Sample) (x : Sample) :
    (ofHistory capacity (history ++ [x])).summary =
      (ofHistory capacity history).summary.observe x.value
        ((ofHistory capacity history).isChange x) := by
  rw [ofHistory_concat]
  rfl

theorem run_concat (capacity : Nat) (history : List Sample) (x : Sample) :
    (ofHistory capacity (history ++ [x])).run =
      (ofHistory capacity history).run.observe x.time
        ((ofHistory capacity history).isChange x) := by
  rw [ofHistory_concat]
  rfl

theorem count_ofHistory (capacity : Nat) (history : List Sample) :
    (ofHistory capacity history).summary.count = history.length := by
  induction history using List.reverseRecOn with
  | nil => rfl
  | append_singleton history x ih =>
    rw [summary_concat, List.length_append, List.length_singleton, ← ih]
    rfl

/-- Changes are the samples that begin a run of the whole history. -/
theorem changes_ofHistory (capacity : Nat) (history : List Sample) :
    (ofHistory capacity history).summary.changes = (runs history).length := by
  induction history using List.reverseRecOn with
  | nil => rfl
  | append_singleton history x ih =>
    rw [summary_concat]
    by_cases hx : Repeats history x
    · have hruns := congrArg List.length (runs_eq hx.ne_nil)
      rw [List.length_append, List.length_singleton] at hruns
      rw [(isChange_eq_false_iff capacity history x).mpr hx, runs_concat_of_repeat hx,
        List.length_append, List.length_singleton, ← hruns, ← ih]
      rfl
    · rw [isChange_of_change hx, runs_concat_of_change hx, List.length_append,
        List.length_singleton, ← ih]
      rfl

theorem changes_le_count (capacity : Nat) (history : List Sample) :
    (ofHistory capacity history).summary.changes ≤ (ofHistory capacity history).summary.count := by
  induction history using List.reverseRecOn with
  | nil => exact Nat.le_refl 0
  | append_singleton history x ih =>
    rw [summary_concat, Summary.observe]
    split <;> simp only <;> omega

theorem run_count_le (capacity : Nat) (history : List Sample) :
    (ofHistory capacity history).run.count ≤ history.length := by
  induction history using List.reverseRecOn with
  | nil => exact Nat.le_refl 0
  | append_singleton history x ih =>
    rw [run_concat, Run.observe, List.length_append, List.length_singleton]
    split <;> simp only <;> omega

/-- A field that picks one of two values has the extreme of the history, if it starts with a value
that is never picked. -/
theorem isExtreme_ofHistory {le : Int64 → Int64 → Prop} {pick : Int64 → Int64 → Int64}
    {start : Int64} (hp : Picks le pick start) {field : Summary → Int64}
    (hempty : field Summary.empty = start)
    (hobserve : ∀ s value changed, field (s.observe value changed) = pick (field s) value)
    (capacity : Nat) (hne : history ≠ []) :
    IsExtreme le (field (ofHistory capacity history).summary) history := by
  induction history using List.reverseRecOn with
  | nil => exact absurd rfl hne
  | append_singleton history x ih =>
    rw [summary_concat, hobserve]
    by_cases hfirst : history = []
    · subst hfirst
      show IsExtreme le (pick (field Summary.empty) x.value) [x]
      rw [hempty, hp.pick_start]
      exact ⟨⟨x, List.mem_singleton_self x, rfl⟩, List.forall_mem_singleton.mpr (hp.refl _)⟩
    · exact (ih hfirst).concat hp x

/-- The sum of so few values is never held at a bound. -/
theorem sum_ofHistory (capacity : Nat) (h : history.length < UInt64.size) :
    (ofHistory capacity history).summary.sum.toInt = valueSum history := by
  induction history using List.reverseRecOn with
  | nil => rfl
  | append_singleton history x ih =>
    have hsize : UInt64.size = 0x10000000000000000 := rfl
    have hroom := natAbs_valueSum_le (history ++ [x])
    rw [valueSum_concat] at hroom ⊢
    rw [List.length_append, List.length_singleton] at h hroom
    rw [summary_concat, Summary.observe, Int128.satAdd, ih (by omega)]
    exact Int128.toInt_clamp_of_natAbs_lt (by omega)

theorem mean_ofHistory (capacity : Nat) (hne : history ≠ [])
    (h : history.length < UInt64.size) :
    (ofHistory capacity history).summary.mean.toInt = (valueSum history).tdiv history.length := by
  have hsize : UInt64.size = 0x10000000000000000 := rfl
  have hpos := List.length_pos_iff.mpr hne
  have hroom := natAbs_valueSum_le history
  have hquot := Int.natAbs_tdiv_le_natAbs (valueSum history) history.length
  rw [Summary.mean, count_ofHistory, if_neg (by omega), Int128.quot, sum_ofHistory capacity h]
  exact Int128.toInt_clamp_of_natAbs_lt (by omega)

end Replay

/-! ### The statistics of a snapshot -/

/-- The statistics and the run of a snapshot are those of a whole history. -/
structure Snapshot.Tells (s : Snapshot) (history : List Sample) : Prop where
  count_eq : s.summary.count = history.length
  changes_eq : s.summary.changes = (Retention.runs history).length
  least : IsExtreme (· ≤ ·) s.summary.min history
  greatest : IsExtreme (fun a b => b ≤ a) s.summary.max history
  sum_eq : s.summary.sum.toInt = valueSum history
  mean_eq : s.summary.mean.toInt = (valueSum history).tdiv history.length
  min_le_mean : s.summary.min.toInt ≤ s.summary.mean.toInt
  mean_le_max : s.summary.mean.toInt ≤ s.summary.max.toInt
  run_eq : ∃ run, (Retention.runs history).getLast? = some run ∧
    run.head?.map Sample.time = some s.run.since ∧ run.length = s.run.count

/-- One more sample is counted and summed up without exceeding a bound. -/
def Snapshot.ObservesTo (before : Snapshot) (x : Sample) (s : Snapshot) : Prop :=
  before.summary.observed? x.value (before.isChange x) = some s.summary ∧
    before.run.observed? x.time (before.isChange x) = some s.run

namespace Snapshot

variable {capacity : Nat} {p q : Pool} {history : List Sample} {before s : Snapshot}

theorem Sound.tells (h : s.Sound capacity p history) (hne : history ≠ [])
    (hsize : history.length < UInt64.size) : s.Tells history := by
  have hpos : (0 : Int) < history.length := by
    have := List.length_pos_iff.mpr hne
    omega
  have hleast : IsExtreme (· ≤ ·) s.summary.min history := by
    rw [h.follows.summary_eq]
    exact Replay.isExtreme_ofHistory picks_min rfl (fun _ _ _ => rfl) capacity hne
  have hgreatest : IsExtreme (fun a b => b ≤ a) s.summary.max history := by
    rw [h.follows.summary_eq]
    exact Replay.isExtreme_ofHistory picks_max rfl (fun _ _ _ => rfl) capacity hne
  have hmean : s.summary.mean.toInt = (valueSum history).tdiv history.length := by
    rw [h.follows.summary_eq, Replay.mean_ofHistory capacity hne hsize]
  refine
    { count_eq := ?_
      changes_eq := ?_
      least := hleast
      greatest := hgreatest
      sum_eq := ?_
      mean_eq := hmean
      min_le_mean := ?_
      mean_le_max := ?_
      run_eq := ?_ }
  · rw [h.follows.summary_eq, Replay.count_ofHistory]
  · rw [h.follows.summary_eq, Replay.changes_ofHistory]
  · rw [h.follows.summary_eq, Replay.sum_ofHistory capacity hsize]
  · rw [hmean]
    exact le_tdiv hpos (mul_le_valueSum fun x hx => Int64.le_iff_toInt_le.mp (hleast.2 x hx))
  · rw [hmean]
    exact tdiv_le hpos (valueSum_le_mul fun x hx => Int64.le_iff_toInt_le.mp (hgreatest.2 x hx))
  · obtain ⟨first, hfirst⟩ : ∃ first, (Retention.lastRun history).head? = some first :=
      ⟨_, List.head?_eq_some_head (Retention.lastRun_ne_nil hne)⟩
    refine ⟨Retention.lastRun history, ?_, ?_, ?_⟩
    · rw [Retention.runs_eq hne, List.getLast?_concat]
    · rw [h.follows.run_eq, Replay.run_ofHistory, hfirst]
      rfl
    · rw [h.follows.run_eq, Replay.run_ofHistory]

/-- As long as fewer than 2⁶⁴ samples have been given, the next one exceeds no bound. -/
theorem Sound.observesTo (hb : before.Sound capacity p history) {x : Sample}
    (hs : s.Sound capacity q (history ++ [x])) (hsize : history.length + 1 < UInt64.size) :
    before.ObservesTo x s := by
  have hsize64 : UInt64.size = 0x10000000000000000 := rfl
  have hroom := natAbs_valueSum_le (history ++ [x])
  rw [valueSum_concat, List.length_append, List.length_singleton] at hroom
  have hcount := Replay.count_ofHistory capacity history
  have hchanges := Replay.changes_le_count capacity history
  have hrun := Replay.run_count_le capacity history
  have hsum := Replay.sum_ofHistory capacity (Nat.lt_of_succ_lt hsize)
  rw [ObservesTo, hb.follows.summary_eq, hb.follows.run_eq, hs.follows.summary_eq,
    hs.follows.run_eq, Replay.summary_concat, Replay.run_concat, isChange_eq hb.follows]
  exact ⟨Summary.observed?_eq_some (by omega) hchanges (by rw [hsum]; omega),
    Run.observed?_eq_some (by omega)⟩

end Snapshot

/-! ### The chain -/

/-- What follows in a chain leaves the snapshots before in their places. -/
theorem Lineage.getElem?_grow_inTurn {l : Lineage} {earlier : List Sample} {s : Snapshot}
    (hs : (l.grow (inTurn earlier)).snapshots[earlier.length]? = some s) (later : List Sample) :
    (l.grow (inTurn (earlier ++ later))).snapshots[earlier.length]? = some s := by
  rw [inTurn, List.mapIdx_append, ← inTurn, grow_append]
  exact getElem?_grow hs _

/-- **Statistics lose nothing.**  After fewer than 2⁶⁴ samples have been added in turn, at any capacity,
the latest snapshot tells their number and how many runs they fall into, the least and the greatest
value, the exact sum and its mean, truncated towards zero and between the extremes, and when the last
run began and how long it is.  No addition on the way exceeds the bound of a count or of the sum. -/
theorem in_turn_statistics_lossless (series : Series) (host : String) {capacity : Nat}
    (hc : 1 ≤ capacity) (ha : Snapshot.Addressable capacity) :
    ∃ l, Lineage.start series host capacity = .ok l ∧
      ∀ history : List Sample, history ≠ [] → history.length < UInt64.size →
        (∃ s, (l.grow (inTurn history)).snapshots[history.length]? = some s ∧ s.Tells history) ∧
        ∀ i x, history[i]? = some x → ∃ before s,
          (l.grow (inTurn history)).snapshots[i]? = some before ∧
          (l.grow (inTurn history)).snapshots[i + 1]? = some s ∧ before.ObservesTo x s := by
  refine ⟨Lineage.root series host capacity, Lineage.start_eq_ok series host hc ha, ?_⟩
  intro history hne hsize
  have hchain := Lineage.endsIn_inTurn (Lineage.endsIn_root series host hc)
  constructor
  · obtain ⟨-, s, hs, hsound, -⟩ := hchain history
    exact ⟨s, hs, hsound.tells hne hsize⟩
  · intro i x hx
    -- the samples up to this one
    obtain ⟨hi, rfl⟩ := List.getElem?_eq_some_iff.mp hx
    have hsplit : history.take i ++ [history[i]] ++ history.drop (i + 1) = history := by
      rw [List.take_append_getElem, List.take_append_drop]
    have hlen : (history.take i).length = i := List.length_take_of_le (Nat.le_of_lt hi)
    obtain ⟨-, before, hbefore, hsound, -⟩ := hchain (history.take i)
    obtain ⟨-, s, hs, hsound', -⟩ := hchain (history.take i ++ [history[i]])
    have hthere := Lineage.getElem?_grow_inTurn hbefore ([history[i]] ++ history.drop (i + 1))
    have hthere' := Lineage.getElem?_grow_inTurn hs (history.drop (i + 1))
    rw [← List.append_assoc, hsplit, hlen] at hthere
    rw [hsplit, List.length_append, List.length_singleton, hlen] at hthere'
    exact ⟨before, s, hthere, hthere', hsound.observesTo hsound' (by omega)⟩

/-- Values on both sides of zero, the least one there is among them and the last one given twice. -/
def swinging : List Sample :=
  [⟨1, 5⟩, ⟨2, Int64.minValue⟩, ⟨3, Int64.minValue⟩, ⟨4, 2⟩, ⟨5, 2⟩]

/-- The sum goes below the least value, and the mean is truncated towards zero; at capacity one nothing
but the latest sample is kept. -/
theorem in_turn_statistics_lossless_swinging :
    (1 ≤ 1 ∧ Snapshot.Addressable 1 ∧ swinging ≠ [] ∧ swinging.length < UInt64.size ∧
      swinging[2]? = some ⟨3, Int64.minValue⟩) ∧
      ∃ l s, Lineage.start (Series.ofName "load") "server" 1 = .ok l ∧
        (l.grow (inTurn swinging)).snapshots[5]? = some s ∧ s.summary.count = 5 ∧
        s.summary.changes = 3 ∧ s.summary.sum.toInt = -0xfffffffffffffff7 ∧
        s.summary.mean.toInt = -3689348814741910321 ∧ s.run.since = 4 ∧ s.run.count = 2 ∧
        ∃ o n, (l.grow (inTurn swinging)).snapshots[2]? = some o ∧
          (l.grow (inTurn swinging)).snapshots[3]? = some n ∧
          o.ObservesTo ⟨3, Int64.minValue⟩ n := by
  refine ⟨⟨by decide, by decide, by decide, by decide, rfl⟩, ?_⟩
  obtain ⟨l, hl, h⟩ := @in_turn_statistics_lossless (Series.ofName "load") "server" 1
    (by decide) (by decide)
  obtain ⟨⟨s, hs, htells⟩, hsteps⟩ := h swinging (by decide) (by decide)
  obtain ⟨o, n, ho, hn, hobserves⟩ := hsteps 2 _ rfl
  obtain ⟨run, hrun, hsince, hcount⟩ := htells.run_eq
  obtain rfl : [⟨4, 2⟩, ⟨5, 2⟩] = run := Option.some.inj hrun
  exact ⟨l, s, hl, hs, htells.count_eq, htells.changes_eq, htells.sum_eq, htells.mean_eq,
    (Option.some.inj hsince).symm, hcount.symm, o, n, ho, hn, hobserves⟩

end MetricStore
