import MetricStore.Proofs.Branching
import MetricStore.Proofs.Runs

/-!
A dataset that is given its samples in turn, each to the snapshot that the one before made.

Such a chain has one snapshot for every sample.  The latest of them always shows the samples of
its replay (`Lineage.endsIn_inTurn`), however often the tape underneath was compacted.  Main
statement:

* `latest_in_turn_shows_kept`: what it shows are the ends of the runs since the latest long one, as
  many as the capacity allows.
-/

namespace MetricStore

theorem inTurn_concat (history : List Sample) (x : Sample) :
    inTurn (history ++ [x]) = inTurn history ++ [(history.length, x)] := by
  rw [inTurn, List.mapIdx_concat]
  rfl

namespace Lineage

/-- The latest snapshot of a tree is the one after a whole history, and shows what is left of it. -/
def EndsIn (capacity : Nat) (l : Lineage) (history : List Sample) : Prop :=
  l.snapshots.size = history.length + 1 ∧
    ∃ s, l.snapshots[history.length]? = some s ∧ s.Sound capacity l.pool history ∧
      s.ShowsOwn capacity l.pool history

variable {capacity : Nat} {l : Lineage} {history : List Sample}

/-- One more sample, given to the latest snapshot, makes the next one. -/
theorem EndsIn.add (h : l.EndsIn capacity history) (x : Sample) :
    (l.add history.length x).EndsIn capacity (history ++ [x]) := by
  obtain ⟨hsize, s, hs, hsound, hshow⟩ := h
  have hlen : (history ++ [x]).length = l.snapshots.size := by
    rw [hsize, List.length_append, List.length_singleton]
  rw [add_of_some hs]
  refine ⟨?_, (s.add l.pool x).2, ?_, hsound.add x, hsound.showsOwn_add hshow x⟩
  · rw [Array.size_push, hlen]
  · rw [hlen]
    exact Array.getElem?_push_size

theorem endsIn_inTurn (hl : l.EndsIn capacity []) (history : List Sample) :
    (l.grow (inTurn history)).EndsIn capacity history := by
  induction history using List.reverseRecOn with
  | nil => exact hl
  | append_singleton history x ih =>
    rw [inTurn_concat, grow_concat]
    exact ih.add x

theorem endsIn_root (series : Series) (host : String) (hc : 1 ≤ capacity) :
    (root series host capacity).EndsIn capacity [] := by
  obtain ⟨hsound, hshow⟩ := (liveShowsOwn_root series host hc).holds (j := 0) rfl rfl
  exact ⟨rfl, _, rfl, hsound, hshow rfl⟩

end Lineage

/-- **The closed form of retention.**  When the samples of a history are added in turn, the latest
snapshot shows the ends of the runs of equal consecutive values since the latest long run, as many
samples as the capacity allows. -/
theorem latest_in_turn_shows_kept (series : Series) (host : String) {capacity : Nat}
    (hc : 1 ≤ capacity) (ha : Snapshot.Addressable capacity) :
    ∃ l, Lineage.start series host capacity = .ok l ∧
      ∀ history : List Sample,
        ∃ s, (l.grow (inTurn history)).snapshots[history.length]? = some s ∧
          s.samples (l.grow (inTurn history)).pool = Retention.kept capacity history := by
  refine ⟨Lineage.root series host capacity, Lineage.start_eq_ok series host hc ha, ?_⟩
  intro history
  obtain ⟨-, s, hs, -, hshow⟩ := Lineage.endsIn_inTurn (Lineage.endsIn_root series host hc) history
  refine ⟨s, hs, ?_⟩
  rw [← Replay.samples_ofHistory hc history]
  exact hshow

/-- Two samples, a run of five, and one sample more. -/
def settled : List Sample :=
  [⟨1, 7⟩, ⟨2, 8⟩, ⟨3, 0⟩, ⟨4, 0⟩, ⟨5, 0⟩, ⟨6, 0⟩, ⟨7, 0⟩, ⟨8, 9⟩]

/-- At capacity three a run of five is long: it makes the samples before it forgotten, and what
follows it is kept beside its ends. -/
theorem latest_in_turn_shows_kept_long :
    (1 ≤ 3 ∧ Snapshot.Addressable 3) ∧
      ∃ l s, Lineage.start (Series.ofName "load") "server" 3 = .ok l ∧
        (l.grow (inTurn settled)).snapshots[8]? = some s ∧
        s.samples (l.grow (inTurn settled)).pool = [⟨3, 0⟩, ⟨7, 0⟩, ⟨8, 9⟩] := by
  refine ⟨⟨by decide, by decide⟩, ?_⟩
  obtain ⟨l, hl, h⟩ :=
    @latest_in_turn_shows_kept (Series.ofName "load") "server" 3 (by decide) (by decide)
  obtain ⟨s, hs, hshow⟩ := h settled
  exact ⟨l, s, hl, hs, hshow.trans (by decide)⟩

end MetricStore
