import Mathlib.Data.List.Infix
import MetricStore.Proofs.InTurn

/-!
One history at two capacities.

A larger capacity pushes samples out later, and takes longer runs to make what came before forgotten.
At no moment has it lost a sample that the smaller one still keeps.  Sample by sample the two go
different ways, so the comparison is made of the closed form: of the runs, the larger capacity
remembers those that the smaller one does and perhaps some before them (`remembered_suffix`), and of
what is remembered it keeps at least as much (`kept_suffix`).  Main statement:

* `raising_capacity_keeps_samples`: of two datasets that are given the same samples in turn, the one
  with the smaller capacity shows the end of what the other one shows, with the same run and the same
  statistics.
-/

namespace MetricStore

namespace Retention

/-! ### What two capacities keep -/

/-- The fewer elements are of the kind, the longer is the end that begins with the last of them. -/
theorem fromLast_suffix_fromLast {α : Type} {p q : α → Bool} (h : ∀ x, q x = true → p x = true)
    (xs : List α) : fromLast p xs <:+ fromLast q xs := by
  induction xs with
  | nil => exact List.suffix_rfl
  | cons x rest ih =>
    by_cases hq : rest.any q = true
    · have hp : rest.any p = true := by
        obtain ⟨y, hy, hqy⟩ := List.any_eq_true.mp hq
        exact List.any_eq_true.mpr ⟨y, hy, h y hqy⟩
      rw [fromLast, fromLast, if_pos hp, if_pos hq]
      exact ih
    · rw [show fromLast q (x :: rest) = x :: rest by rw [fromLast, if_neg hq]]
      exact fromLast_suffix p (x :: rest)

theorem lastOf_suffix {α : Type} (n : Nat) (xs : List α) : lastOf n xs <:+ xs :=
  List.drop_suffix _ xs

theorem lastOf_suffix_lastOf {α : Type} {m n : Nat} (hmn : m ≤ n) {xs ys : List α}
    (h : xs <:+ ys) : lastOf m xs <:+ lastOf n ys := by
  refine List.suffix_of_suffix_length_le ((lastOf_suffix m xs).trans h) (lastOf_suffix n ys) ?_
  have hlen := h.length_le
  rw [length_lastOf, length_lastOf]
  omega

variable {capacity larger : Nat}

/-- A run that is long for the larger capacity is long for the smaller one. -/
theorem remembered_suffix (h : capacity ≤ larger) (history : List Sample) :
    remembered capacity history <:+ remembered larger history := by
  refine List.IsSuffix.flatMap (fromLast_suffix_fromLast ?_ (runs history)) ends
  intro run hlong
  have hlong : 2 * larger - 1 ≤ run.length := of_decide_eq_true hlong
  refine decide_eq_true ?_
  omega

theorem kept_suffix (h : capacity ≤ larger) (history : List Sample) :
    kept capacity history <:+ kept larger history := by
  rw [kept_eq, kept_eq]
  exact lastOf_suffix_lastOf h (remembered_suffix h history)

end Retention

namespace Replay

/-- Which samples change the value is seen at every capacity. -/
theorem isChange_ofHistory_eq (capacity larger : Nat) (history : List Sample) (x : Sample) :
    (ofHistory capacity history).isChange x = (ofHistory larger history).isChange x := by
  have h : (ofHistory capacity history).isChange x = false ↔
      (ofHistory larger history).isChange x = false := by
    rw [isChange_eq_false_iff, isChange_eq_false_iff]
  simpa using h

/-- The statistics do not depend on the capacity. -/
theorem summary_ofHistory_eq (capacity larger : Nat) (history : List Sample) :
    (ofHistory capacity history).summary = (ofHistory larger history).summary := by
  induction history using List.reverseRecOn with
  | nil => rfl
  | append_singleton history x ih =>
    rw [ofHistory_concat, ofHistory_concat]
    show (ofHistory capacity history).summary.observe _ _ = (ofHistory larger history).summary.observe _ _
    rw [ih, isChange_ofHistory_eq capacity larger]

theorem run_ofHistory_eq (capacity larger : Nat) (history : List Sample) :
    (ofHistory capacity history).run = (ofHistory larger history).run := by
  rw [run_ofHistory, run_ofHistory]

end Replay

theorem Snapshot.Addressable.mono {capacity larger : Nat} (h : capacity ≤ larger)
    (ha : Addressable larger) : Addressable capacity := by
  simp only [Addressable] at ha ⊢
  omega

/-- **Raising the capacity loses no samples.**  Two datasets are given the same samples in turn.  The
one with the smaller capacity shows the end of what the other one shows, and they agree on the run and
on the statistics. -/
theorem raising_capacity_keeps_samples (series series' : Series) (host host' : String)
    {capacity larger : Nat} (hc : 1 ≤ capacity) (hle : capacity ≤ larger)
    (ha : Snapshot.Addressable larger) :
    ∃ l l', Lineage.start series host capacity = .ok l ∧
      Lineage.start series' host' larger = .ok l' ∧
      ∀ history : List Sample,
        ∃ s s', (l.grow (inTurn history)).snapshots[history.length]? = some s ∧
          (l'.grow (inTurn history)).snapshots[history.length]? = some s' ∧
          s.samples (l.grow (inTurn history)).pool <:+ s'.samples (l'.grow (inTurn history)).pool ∧
          s.run = s'.run ∧ s.summary = s'.summary := by
  have hc' : 1 ≤ larger := Nat.le_trans hc hle
  refine ⟨_, _, Lineage.start_eq_ok series host hc (ha.mono hle),
    Lineage.start_eq_ok series' host' hc' ha, ?_⟩
  intro history
  obtain ⟨-, s, hs, hsound, hshow⟩ :=
    Lineage.endsIn_inTurn (Lineage.endsIn_root series host hc) history
  obtain ⟨-, s', hs', hsound', hshow'⟩ :=
    Lineage.endsIn_inTurn (Lineage.endsIn_root series' host' hc') history
  refine ⟨s, s', hs, hs', ?_, ?_, ?_⟩
  · rw [hshow, hshow', Replay.samples_ofHistory hc, Replay.samples_ofHistory hc']
    exact Retention.kept_suffix hle history
  · rw [hsound.follows.run_eq, hsound'.follows.run_eq]
    exact Replay.run_ofHistory_eq capacity larger history
  · rw [hsound.follows.summary_eq, hsound'.follows.summary_eq]
    exact Replay.summary_ofHistory_eq capacity larger history

/-- A sample, and a run of three. -/
def lull : List Sample := [⟨1, 5⟩, ⟨2, 7⟩, ⟨3, 7⟩, ⟨4, 7⟩]

/-- A run of three is a long one at capacity two and makes the sample before it forgotten, which is kept
at capacity three. -/
theorem raising_capacity_keeps_samples_lull :
    (1 ≤ 2 ∧ 2 ≤ 3 ∧ Snapshot.Addressable 3) ∧
      ∃ l l' s s', Lineage.start (Series.ofName "load") "server" 2 = .ok l ∧
        Lineage.start (Series.ofName "load") "server" 3 = .ok l' ∧
        (l.grow (inTurn lull)).snapshots[4]? = some s ∧
        (l'.grow (inTurn lull)).snapshots[4]? = some s' ∧
        s.samples (l.grow (inTurn lull)).pool = [⟨2, 7⟩, ⟨4, 7⟩] ∧
        s'.samples (l'.grow (inTurn lull)).pool = [⟨1, 5⟩, ⟨2, 7⟩, ⟨4, 7⟩] ∧
        s.samples (l.grow (inTurn lull)).pool <:+ s'.samples (l'.grow (inTurn lull)).pool ∧
        s.run = s'.run ∧ s.summary = s'.summary := by
  refine ⟨⟨by decide, by decide, by decide⟩, ?_⟩
  obtain ⟨l, l', hl, hl', h⟩ := @raising_capacity_keeps_samples (Series.ofName "load")
    (Series.ofName "load") "server" "server" 2 3 (by decide) (by decide) (by decide)
  obtain ⟨s, s', hs, hs', hsuffix, hrun, hsummary⟩ := h lull
  have hsmall := hl
  have hlarge := hl'
  rw [Lineage.start_eq_ok _ _ (by decide) (by decide)] at hsmall hlarge
  cases hsmall
  cases hlarge
  obtain rfl := Option.some.inj hs
  obtain rfl := Option.some.inj hs'
  exact ⟨_, _, _, _, hl, hl', rfl, rfl, by decide, by decide, hsuffix, hrun, hsummary⟩

end MetricStore
