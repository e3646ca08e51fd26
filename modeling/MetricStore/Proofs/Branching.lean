import MetricStore.Proofs.Tree

/-!
Branching from one snapshot.

Additions may be made to any snapshot made so far.  Main statements:

* `snapshots_unchanged_by_add`: an addition to any snapshot leaves all others as they are; what
  they read from the tape stays too, unless they are outdated afterwards;
* `live_snapshots_show_own_history`: if additions are made only to snapshots that are not recycled
  (`Lineage.AddsToLive`), every snapshot that is not recycled shows the samples that the rules of
  retention leave of its own history, the outdated one that has just compacted the tape included.
-/

namespace MetricStore

namespace Lineage

/-! ### One addition and the snapshots that are there -/

theorem getElem?_add_of_some {l : Lineage} {j : Nat} {s : Snapshot} (h : l.snapshots[j]? = some s)
    (i : Nat) (x : Sample) : (l.add i x).snapshots[j]? = some s :=
  (getElem?_add l i x (Array.getElem?_eq_some_iff.mp h).1).trans h

theorem samples_add_of_current {capacity : Nat} {l : Lineage} {s : Snapshot}
    {history : List Sample} (h : s.Sound capacity l.pool history) {i : Nat} {x : Sample}
    (ho : s.isOutdated (l.add i x).pool = false) :
    s.samples (l.add i x).pool = s.samples l.pool := by
  cases hi : l.snapshots[i]? with
  | none => rw [add_of_none hi]
  | some t =>
    rw [add_of_some hi] at ho ⊢
    exact (h.live_before ((h.after t x).sits.live_of_current ho)).2

/-- Whoever is not outdated after an addition reads what it read before, at every position. -/
theorem reads_unchanged_by_add {capacity : Nat} {l : Lineage} {s : Snapshot}
    {history : List Sample} (h : s.Sound capacity l.pool history) {i : Nat} {x : Sample}
    (ho : s.isOutdated (l.add i x).pool = false) :
    s.samples (l.add i x).pool = s.samples l.pool ∧
      (∀ k, s.sample? (l.add i x).pool k = s.sample? l.pool k) ∧
      s.firstTime (l.add i x).pool = s.firstTime l.pool := by
  have hsamples := samples_add_of_current h ho
  -- what stands at a position is read off the samples
  have hsample : ∀ k, s.sample? (l.add i x).pool k = s.sample? l.pool k := by
    intro k
    rw [Snapshot.sample?, Snapshot.sample?, (sound_after_add h i x).sits.sample?_eq, h.sits.sample?_eq]
    exact congrArg (·[k]?) hsamples
  refine ⟨hsamples, hsample, ?_⟩
  rw [Snapshot.firstTime, Snapshot.firstTime, hsample 0]

end Lineage

/-- **Snapshots are immutable until they are outdated.**  An addition to any snapshot, outdated or
not, leaves every other one with the same facts; and whoever is not outdated afterwards reads the
same samples from the tape, at every position. -/
theorem snapshots_unchanged_by_add (series : Series) (host : String) {capacity : Nat}
    (hc : 1 ≤ capacity) (ha : Snapshot.Addressable capacity) :
    ∃ l, Lineage.start series host capacity = .ok l ∧
      ∀ (additions : List Addition) (i : Nat) (x : Sample) (j : Nat) (s : Snapshot),
        (l.grow additions).snapshots[j]? = some s →
          ∃ s', (l.grow (additions ++ [(i, x)])).snapshots[j]? = some s' ∧
            s'.series = s.series ∧ s'.host = s.host ∧ s'.capacity = s.capacity ∧
            s'.size = s.size ∧ s'.summary = s.summary ∧ s'.run = s.run ∧
            s'.lastTime = s.lastTime ∧ s'.lastValue = s.lastValue ∧
            (s'.isOutdated (l.grow (additions ++ [(i, x)])).pool = false →
              s'.samples (l.grow (additions ++ [(i, x)])).pool =
                s.samples (l.grow additions).pool ∧
              (∀ k, s'.sample? (l.grow (additions ++ [(i, x)])).pool k =
                s.sample? (l.grow additions).pool k) ∧
              s'.firstTime (l.grow (additions ++ [(i, x)])).pool =
                s.firstTime (l.grow additions).pool) := by
  refine ⟨Lineage.root series host capacity, Lineage.start_eq_ok series host hc ha, ?_⟩
  intro additions i x j s hs
  have hbefore := Lineage.sound_grow series host hc additions
  obtain ⟨history, hh⟩ := hbefore.exists_history hs
  rw [Lineage.grow_concat]
  refine ⟨s, Lineage.getElem?_add_of_some hs i x, rfl, rfl, rfl, rfl, rfl, rfl, rfl, rfl, ?_⟩
  intro ho
  exact Lineage.reads_unchanged_by_add (hbefore.holds hs hh) ho

/-- At capacity three, the fourth sample is written to the tape that the third snapshot reads. -/
theorem snapshots_unchanged_in_place :
    (1 ≤ 3 ∧ Snapshot.Addressable 3) ∧
      ∃ l s, Lineage.start (Series.ofName "load") "server" 3 = .ok l ∧
        (l.grow (inTurn [⟨1, 1⟩, ⟨2, 2⟩, ⟨3, 3⟩])).snapshots[3]? = some s ∧
        ∃ s', (l.grow (inTurn [⟨1, 1⟩, ⟨2, 2⟩, ⟨3, 3⟩] ++ [(3, ⟨4, 4⟩)])).snapshots[3]? = some s' ∧
          s'.samples (l.grow (inTurn [⟨1, 1⟩, ⟨2, 2⟩, ⟨3, 3⟩] ++ [(3, ⟨4, 4⟩)])).pool =
            [⟨1, 1⟩, ⟨2, 2⟩, ⟨3, 3⟩] := by
  refine ⟨⟨by decide, by decide⟩, ?_⟩
  obtain ⟨l, hl, h⟩ :=
    @snapshots_unchanged_by_add (Series.ofName "load") "server" 3 (by decide) (by decide)
  rw [Lineage.start_eq_ok _ _ (by decide) (by decide)] at hl
  cases hl
  obtain ⟨s', hs', -, -, -, -, -, -, -, -, hread⟩ :=
    h (inTurn [⟨1, 1⟩, ⟨2, 2⟩, ⟨3, 3⟩]) 3 ⟨4, 4⟩ 3 _ rfl
  obtain rfl := Option.some.inj hs'
  exact ⟨_, _, Lineage.start_eq_ok _ _ (by decide) (by decide), rfl, _, rfl,
    (hread (by decide)).1.trans (by decide)⟩

/-! ### Additions to snapshots that are not recycled -/

namespace Lineage

/-- Every addition is made to a snapshot that is there and not recycled at that moment. -/
def AddsToLive (l : Lineage) : List Addition → Prop
  | [] => True
  | (i, x) :: rest =>
    (∃ s ∈ l.snapshots[i]?, s.span.isRecycled l.pool = false) ∧ AddsToLive (l.add i x) rest

instance decidableAddsToLive : (l : Lineage) → (additions : List Addition) →
    Decidable (l.AddsToLive additions)
  | _, [] => inferInstanceAs (Decidable True)
  | l, (i, x) :: rest =>
    have := decidableAddsToLive (l.add i x) rest
    inferInstanceAs (Decidable (_ ∧ _))

/-- Sound, and showing its own samples unless it is recycled. -/
def LiveShowsOwn (capacity : Nat) (p : Pool) (history : List Sample) (s : Snapshot) : Prop :=
  s.Sound capacity p history ∧
    (s.span.isRecycled p = false → s.ShowsOwn capacity p history)

/-- An addition keeps this of the snapshots that are there, so only the new one matters. -/
theorem liveShowsOwn_add {capacity : Nat} {l : Lineage} {known : Array (List Sample)}
    (h : l.Each (LiveShowsOwn capacity) known) {i : Nat} {x : Sample}
    (hnew : ∀ s history, l.snapshots[i]? = some s → known[i]? = some history →
      (s.add l.pool x).2.span.isRecycled (s.add l.pool x).1 = false →
        (s.add l.pool x).2.ShowsOwn capacity (s.add l.pool x).1 (history ++ [x])) :
    (l.add i x).Each (LiveShowsOwn capacity) (branch known (i, x)) := by
  refine h.add ?_ ?_
  · rintro s - o history ⟨hsound, hshow⟩
    refine ⟨hsound.after s x, ?_⟩
    intro hl
    obtain ⟨hlive, hsame⟩ := hsound.live_before hl
    exact hsame.trans (hshow hlive)
  · intro s history hs hh hlive
    exact ⟨hlive.1.add x, hnew s history hs hh⟩

theorem liveShowsOwn_root (series : Series) (host : String) {capacity : Nat} (hc : 1 ≤ capacity) :
    (root series host capacity).Each (LiveShowsOwn capacity) #[[]] := by
  have h := sound_root series host hc
  refine ⟨h.size_eq, ?_⟩
  intro j s history hs hh
  have hsound := h.holds hs hh
  refine ⟨hsound, fun _ => ?_⟩
  refine Snapshot.shows_of_length_eq_zero hsound.follows hsound.sits' ?_
  obtain ⟨-, rfl⟩ := eq_of_getElem?_root hs
  rfl

theorem liveShowsOwn_grow {capacity : Nat} {additions : List Addition} :
    ∀ {l : Lineage} {known : Array (List Sample)}, l.Each (LiveShowsOwn capacity) known →
      l.AddsToLive additions →
        (l.grow additions).Each (LiveShowsOwn capacity) (additions.foldl branch known) := by
  induction additions with
  | nil =>
    intro l known h _
    exact h
  | cons a rest ih =>
    intro l known h hadds
    obtain ⟨⟨s, hs, hlive⟩, hrest⟩ := hadds
    refine ih (liveShowsOwn_add h ?_) hrest
    intro t history ht hh _
    obtain rfl : s = t := Option.some.inj (hs.symm.trans ht)
    obtain ⟨hsound, hshow⟩ := h.holds ht hh
    exact hsound.showsOwn_add (hshow hlive) a.2

/-- The snapshot made last is not recycled. -/
theorem live_back_grow {capacity : Nat} {additions : List Addition} :
    ∀ {l : Lineage} {known : Array (List Sample)}, l.Each (Snapshot.Sound capacity) known →
      (∀ s ∈ l.snapshots.back?, s.span.isRecycled l.pool = false) → l.AddsToLive additions →
        ∀ s ∈ (l.grow additions).snapshots.back?, s.span.isRecycled (l.grow additions).pool = false := by
  induction additions with
  | nil =>
    intro l known _ hback _
    exact hback
  | cons a rest ih =>
    intro l known h _ hadds
    obtain ⟨⟨s, hs, hlive⟩, hrest⟩ := hadds
    refine ih (sound_add h a.1 a.2) ?_ hrest
    obtain ⟨history, hh⟩ := h.exists_history hs
    show ∀ s ∈ (l.add a.1 a.2).snapshots.back?, s.span.isRecycled (l.add a.1 a.2).pool = false
    rw [add_of_some hs, Array.back?_push]
    rintro _ ⟨⟩
    exact Snapshot.isRecycled_add (h.holds hs hh).sits' hlive a.2

end Lineage

/-- **A snapshot shows its own history until it is recycled.**  If additions are made only to
snapshots that are not recycled, then every snapshot that is not recycled shows what the rules of
retention leave of its own history, and is outdated only if its own making compacted the tape; and
the snapshot made last is never recycled. -/
theorem live_snapshots_show_own_history (series : Series) (host : String) {capacity : Nat}
    (hc : 1 ≤ capacity) (ha : Snapshot.Addressable capacity) :
    ∃ l, Lineage.start series host capacity = .ok l ∧
      ∀ additions : List Addition, l.AddsToLive additions →
        (∀ (j : Nat) (s : Snapshot), (l.grow additions).snapshots[j]? = some s →
          ∃ history, (histories additions)[j]? = some history ∧
            (s.span.isRecycled (l.grow additions).pool = false →
              s.samples (l.grow additions).pool = (Replay.ofHistory capacity history).samples ∧
              s.isOutdated (l.grow additions).pool = s.span.hasCompacted)) ∧
        ∀ s ∈ (l.grow additions).snapshots.back?,
          s.span.isRecycled (l.grow additions).pool = false := by
  refine ⟨Lineage.root series host capacity, Lineage.start_eq_ok series host hc ha, ?_⟩
  intro additions hadds
  have hlive := Lineage.liveShowsOwn_grow (Lineage.liveShowsOwn_root series host hc) hadds
  constructor
  · intro j s hs
    obtain ⟨history, hh⟩ := hlive.exists_history hs
    refine ⟨history, hh, ?_⟩
    intro hl
    refine ⟨(hlive.holds hs hh).2 hl, ?_⟩
    rw [Span.isRecycled_eq_false_iff] at hl
    rw [Snapshot.isOutdated, Span.isOutdated, Span.hasCompacted, hl]
  · refine Lineage.live_back_grow (Lineage.sound_root series host hc) ?_ hadds
    rintro _ ⟨⟩
    rfl

/-- Seven samples in turn, and two more that are both added to the snapshot of all seven. -/
def forked : List Addition :=
  inTurn [⟨1, 1⟩, ⟨2, 2⟩, ⟨3, 3⟩, ⟨4, 4⟩, ⟨5, 5⟩, ⟨6, 6⟩, ⟨7, 7⟩] ++ [(7, ⟨8, 8⟩), (7, ⟨8, 80⟩)]

/-- At capacity three, the seventh sample compacts the tape, and of the two that are added to the
snapshot it made, the second is given a fork. -/
theorem live_snapshots_show_own_history_compacted :
    (1 ≤ 3 ∧ Snapshot.Addressable 3) ∧
      ∃ l s, Lineage.start (Series.ofName "load") "server" 3 = .ok l ∧ l.AddsToLive forked ∧
        (l.grow forked).snapshots[7]? = some s ∧ s.span.hasCompacted = true ∧
        s.samples (l.grow forked).pool = [⟨5, 5⟩, ⟨6, 6⟩, ⟨7, 7⟩] := by
  refine ⟨⟨by decide, by decide⟩, ?_⟩
  obtain ⟨l, hl, h⟩ :=
    @live_snapshots_show_own_history (Series.ofName "load") "server" 3 (by decide) (by decide)
  rw [Lineage.start_eq_ok _ _ (by decide) (by decide)] at hl
  cases hl
  have hadds : (Lineage.root (Series.ofName "load") "server" 3).AddsToLive forked := by decide
  obtain ⟨history, hh, hshow⟩ := (h forked hadds).1 7 _ rfl
  obtain rfl := Option.some.inj hh
  exact ⟨_, _, Lineage.start_eq_ok _ _ (by decide) (by decide), hadds, rfl, by decide,
    (hshow (by decide)).1.trans (by decide)⟩

end MetricStore
