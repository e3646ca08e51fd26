import MetricStore.Proofs.InTurn

/-!
What a snapshot knows without its tape.

Size, statistics, run and latest sample are values of the snapshot itself.  But a collapse looks at
the tape before it decides whether anything has to be written, and a commit looks at what others
wrote before it decides between the tape and a fork; the tape may be recycled when they look.  Main
statement:

* `facts_depend_on_own_history`: whatever the additions are made to, all that a snapshot knows
  without its tape is what a dataset of its own knows after the same history.
-/

namespace MetricStore

namespace Snapshot

/-- Two snapshots agree in everything that is not read from a tape. -/
structure Agrees (s r : Snapshot) : Prop where
  capacity_eq : s.capacity = r.capacity
  size_eq : s.size = r.size
  summary_eq : s.summary = r.summary
  since_eq : s.run.since = r.run.since
  count_eq : s.run.count = r.run.count
  lastTime_eq : s.lastTime = r.lastTime
  lastValue_eq : s.lastValue = r.lastValue

/-- Both follow the replay of the one history, be their tapes what they may. -/
theorem Sound.agrees {capacity : Nat} {p q : Pool} {history : List Sample} {s r : Snapshot}
    (hs : s.Sound capacity p history) (hr : r.Sound capacity q history) : s.Agrees r := by
  have hrun : s.run = r.run := hs.follows.run_eq.trans hr.follows.run_eq.symm
  have hlatest : s.span.latest = r.span.latest :=
    hs.follows.latest_eq.trans hr.follows.latest_eq.symm
  refine ⟨hs.capacity_eq.trans hr.capacity_eq.symm, hs.follows.size_eq.trans hr.follows.size_eq.symm,
    hs.follows.summary_eq.trans hr.follows.summary_eq.symm, ?_, ?_, ?_, ?_⟩
  · rw [hrun]
  · rw [hrun]
  · rw [lastTime, lastTime, hlatest]
  · rw [lastValue, lastValue, hlatest]

/-- The latest sample is the last of the history. -/
theorem Sound.latest_eq {capacity : Nat} {p : Pool} {history : List Sample} {s : Snapshot}
    (h : s.Sound capacity p history) : s.span.latest = history.getLast? :=
  h.follows.latest_eq.trans (Replay.getLast?_ofHistory capacity history)

end Snapshot

/-- **What is not read from the tape depends on the own history alone.**  Whatever the additions are
made to, and whatever the other branches wrote, compacted or forked: every snapshot agrees with the
one that a fresh dataset, which shares its tape with nobody, makes of the same history in turn. -/
theorem facts_depend_on_own_history (series : Series) (host : String) {capacity : Nat}
    (hc : 1 ≤ capacity) (ha : Snapshot.Addressable capacity) :
    ∃ l, Lineage.start series host capacity = .ok l ∧
      ∀ (additions : List Addition) (j : Nat) (s : Snapshot),
        (l.grow additions).snapshots[j]? = some s →
          ∃ history r, (histories additions)[j]? = some history ∧
            (l.grow (inTurn history)).snapshots[history.length]? = some r ∧ s.Agrees r := by
  refine ⟨Lineage.root series host capacity, Lineage.start_eq_ok series host hc ha, ?_⟩
  intro additions j s hs
  have hgrown := Lineage.sound_grow series host hc additions
  obtain ⟨history, hh⟩ := hgrown.exists_history hs
  obtain ⟨-, r, hr, hsound, -⟩ :=
    Lineage.endsIn_inTurn (Lineage.endsIn_root series host hc) history
  exact ⟨history, r, hh, hr, (hgrown.holds hs hh).agrees hsound⟩

/-- Five samples in turn, and a sixth that is added to the snapshot of the first two. -/
def resumed : List Addition :=
  inTurn [⟨1, 5⟩, ⟨2, 5⟩, ⟨3, 6⟩, ⟨4, 7⟩, ⟨5, 8⟩] ++ [(2, ⟨9, 5⟩)]

/-- At capacity two the sixth sample collapses a run whose first sample is gone from the slots, so
the collapse forks where a dataset of its own would write nothing. -/
theorem facts_depend_on_own_history_resumed :
    (1 ≤ 2 ∧ Snapshot.Addressable 2) ∧
      ∃ l s r, Lineage.start (Series.ofName "load") "server" 2 = .ok l ∧
        (l.grow resumed).snapshots[6]? = some s ∧
        (l.grow (inTurn [⟨1, 5⟩, ⟨2, 5⟩, ⟨9, 5⟩])).snapshots[3]? = some r ∧
        s.span.tape ≠ r.span.tape ∧ s.Agrees r := by
  refine ⟨⟨by decide, by decide⟩, ?_⟩
  obtain ⟨l, hl, h⟩ :=
    @facts_depend_on_own_history (Series.ofName "load") "server" 2 (by decide) (by decide)
  rw [Lineage.start_eq_ok _ _ (by decide) (by decide)] at hl
  cases hl
  obtain ⟨history, r, hh, hr, hagrees⟩ := h resumed 6 _ rfl
  obtain rfl := Option.some.inj hh
  obtain rfl := Option.some.inj hr
  exact ⟨_, _, _, Lineage.start_eq_ok _ _ (by decide) (by decide), rfl, rfl, by decide, hagrees⟩

end MetricStore
