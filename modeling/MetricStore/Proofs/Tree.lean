import MetricStore.Lineage
import MetricStore.Proofs.Addition

/-!
Invariants of the tree of snapshots.

A tree and the histories of its snapshots grow by the same additions; `Lineage.Each` says that
something holds of every snapshot with its own history.  What holds of each is kept by an addition
if it is kept for the snapshots that are there and holds of the new one (`Lineage.Each.add`).

Main statement: every snapshot of every tree fits its tape and follows the replay of its own
history (`Lineage.sound_grow`), whatever the additions were made to.
-/

namespace MetricStore

namespace Snapshot

/-- A snapshot fits its tape and follows the replay of its history. -/
structure Sound (capacity : Nat) (p : Pool) (history : List Sample) (s : Snapshot) : Prop where
  capacity_eq : s.capacity = capacity
  sits : s.span.Sits capacity p
  follows : s.Follows (Replay.ofHistory capacity history)

/-- A snapshot shows the samples of the replay of its history. -/
def ShowsOwn (capacity : Nat) (p : Pool) (history : List Sample) (s : Snapshot) : Prop :=
  s.samples p = (Replay.ofHistory capacity history).samples

namespace Sound

variable {capacity : Nat} {p : Pool} {history : List Sample} {s : Snapshot}

theorem sits' (h : s.Sound capacity p history) : s.span.Sits s.capacity p :=
  h.capacity_eq ▸ h.sits

theorem moveFor_allowed (h : s.Sound capacity p history) (x : Sample) :
    (s.moveFor p x).Allowed capacity s.span.length :=
  h.capacity_eq ▸ Snapshot.moveFor_allowed h.sits' x

theorem add (h : s.Sound capacity p history) (x : Sample) :
    (s.add p x).2.Sound capacity (s.add p x).1 (history ++ [x]) := by
  obtain ⟨rfl, hs, hf⟩ := h
  refine ⟨rfl, sits_add hs x, ?_⟩
  rw [Replay.ofHistory_concat]
  exact hf.add hs x

theorem after (h : s.Sound capacity p history) (t : Snapshot) (x : Sample) :
    s.Sound capacity (t.add p x).1 history := by
  refine ⟨h.capacity_eq, ?_, h.follows⟩
  rw [add_eq]
  exact h.sits.after t.span x _

/-- What an addition to any snapshot leaves unrecycled was so before, and shows the same. -/
theorem live_before (h : s.Sound capacity p history) {t : Snapshot} {x : Sample}
    (hl : s.span.isRecycled (t.add p x).1 = false) :
    s.span.isRecycled p = false ∧ s.samples (t.add p x).1 = s.samples p := by
  rw [add_eq] at hl ⊢
  exact h.sits.live_before hl

/-- A snapshot that shows its own samples is followed by one that does. -/
theorem showsOwn_add (h : s.Sound capacity p history) (hs : s.ShowsOwn capacity p history)
    (x : Sample) : (s.add p x).2.ShowsOwn capacity (s.add p x).1 (history ++ [x]) := by
  obtain ⟨rfl, hsits, hf⟩ := h
  rw [ShowsOwn, Replay.ofHistory_concat]
  exact shows_add hf hsits hs x

end Sound

end Snapshot

/-! ### The empty snapshot of a dataset -/

theorem Span.sits_fresh {capacity : Nat} (hc : 1 ≤ capacity) (p : Pool) :
    (Span.fresh p capacity).2.Sits capacity (Span.fresh p capacity).1 := by
  have hsize : (Tape.blank (2 * capacity - 1)).slots.size = 2 * capacity - 1 := by
    rw [Tape.blank, Array.size_replicate]
    omega
  have hn : p.tapes.size < (Span.fresh p capacity).1.tapes.size := by
    rw [Span.fresh, Pool.add, Array.size_push]
    exact Nat.lt_succ_self _
  refine ⟨hn, ?_⟩
  show Span.Fits capacity ((p.add (Tape.blank (2 * capacity - 1))).1.tape p.tapes.size) _
  rw [Span.tape_add_size]
  exact ⟨hc, hsize, Nat.zero_le _, Nat.le_refl _, Nat.le_refl _, Nat.le_refl _, hc, Nat.zero_le _,
    fun _ => Nat.le_refl _, fun _ => ⟨rfl, rfl⟩, fun _ => rfl⟩

namespace Snapshot

/-- The empty snapshot of a dataset, whose tape is added to the pool. -/
def blank (p : Pool) (series : Series) (host : String) (capacity : Nat) : Snapshot :=
  ⟨series, host, capacity, (Span.fresh p capacity).2, Run.empty, Summary.empty⟩

theorem fresh_eq_ok (p : Pool) (series : Series) (host : String) {capacity : Nat}
    (hc : 1 ≤ capacity) (ha : Addressable capacity) :
    fresh p series host capacity =
      .ok ((Span.fresh p capacity).1, blank p series host capacity) := by
  rw [fresh, if_neg (by omega), if_pos ha]
  rfl

theorem sound_blank (p : Pool) (series : Series) (host : String) {capacity : Nat}
    (hc : 1 ≤ capacity) :
    (blank p series host capacity).Sound capacity (Span.fresh p capacity).1 [] :=
  ⟨rfl, Span.sits_fresh hc p, rfl, rfl, rfl, rfl⟩

end Snapshot

theorem histories_concat (additions : List Addition) (a : Addition) :
    histories (additions ++ [a]) = branch (histories additions) a := by
  simp [histories]

namespace Lineage

/-- Something holds of every snapshot of a tree with its own history. -/
structure Each (P : Pool → List Sample → Snapshot → Prop) (l : Lineage)
    (known : Array (List Sample)) : Prop where
  size_eq : known.size = l.snapshots.size
  holds : ∀ {j : Nat} {s : Snapshot} {h : List Sample},
    l.snapshots[j]? = some s → known[j]? = some h → P l.pool h s

/-- Every snapshot has a history. -/
theorem Each.exists_history {P : Pool → List Sample → Snapshot → Prop} {l : Lineage}
    {known : Array (List Sample)} (h : l.Each P known) {j : Nat} {s : Snapshot}
    (hs : l.snapshots[j]? = some s) : ∃ history, known[j]? = some history := by
  have hj : j < known.size := h.size_eq ▸ (Array.getElem?_eq_some_iff.mp hs).1
  exact ⟨known[j], Array.getElem?_eq_getElem hj⟩

/-! ### One addition -/

theorem grow_concat (l : Lineage) (additions : List Addition) (i : Nat) (x : Sample) :
    l.grow (additions ++ [(i, x)]) = (l.grow additions).add i x :=
  grow_append l additions [(i, x)]

theorem add_of_none {l : Lineage} {i : Nat} (h : l.snapshots[i]? = none) (x : Sample) :
    l.add i x = l := by
  rw [add, h]

theorem add_of_some {l : Lineage} {i : Nat} {s : Snapshot} (h : l.snapshots[i]? = some s)
    (x : Sample) :
    l.add i x = ⟨(s.add l.pool x).1, l.snapshots.push (s.add l.pool x).2⟩ := by
  rw [add, h]

/-- An addition to any snapshot leaves the others sound. -/
theorem sound_after_add {capacity : Nat} {l : Lineage} {s : Snapshot} {history : List Sample}
    (h : s.Sound capacity l.pool history) (i : Nat) (x : Sample) :
    s.Sound capacity (l.add i x).pool history := by
  cases hi : l.snapshots[i]? with
  | none =>
    rw [add_of_none hi]
    exact h
  | some t =>
    rw [add_of_some hi]
    exact h.after t x

/-- An addition keeps what it keeps of the old snapshots and gives to the new one. -/
theorem Each.add {P : Pool → List Sample → Snapshot → Prop} {l : Lineage}
    {known : Array (List Sample)} (hl : l.Each P known) {i : Nat} {x : Sample}
    (hold : ∀ s, l.snapshots[i]? = some s →
      ∀ o h, P l.pool h o → P (s.add l.pool x).1 h o)
    (hnew : ∀ s h, l.snapshots[i]? = some s → known[i]? = some h → P l.pool h s →
      P (s.add l.pool x).1 (h ++ [x]) (s.add l.pool x).2) :
    (l.add i x).Each P (branch known (i, x)) := by
  cases hs : l.snapshots[i]? with
  | none =>
    -- nothing is added, to either side
    have hk : known[i]? = none := by
      rw [Array.getElem?_eq_none_iff] at hs ⊢
      rw [hl.size_eq]
      exact hs
    rw [add_of_none hs, branch, hk]
    exact hl
  | some s =>
    have hi : i < known.size := hl.size_eq ▸ (Array.getElem?_eq_some_iff.mp hs).1
    have hk : known[i]? = some known[i] := Array.getElem?_eq_getElem hi
    rw [add_of_some hs, branch, hk]
    refine ⟨by simp only [Array.size_push, hl.size_eq], ?_⟩
    intro j o h ho hh
    rw [Array.getElem?_push] at ho hh
    rw [← hl.size_eq] at ho
    by_cases hj : j = known.size
    · -- the new snapshot stands last
      rw [if_pos hj] at ho hh
      cases ho
      cases hh
      exact hnew s known[i] hs hk (hl.holds hs hk)
    · rw [if_neg hj] at ho hh
      exact hold s hs o h (hl.holds ho hh)

/-! ### The empty tree and all additions -/

/-- The tree with the empty snapshot alone. -/
def root (series : Series) (host : String) (capacity : Nat) : Lineage :=
  ⟨(Span.fresh Pool.empty capacity).1,
    #[⟨series, host, capacity, (Span.fresh Pool.empty capacity).2, Run.empty, Summary.empty⟩]⟩

/-- A dataset can be started with any capacity whose slots can be addressed. -/
theorem start_eq_ok (series : Series) (host : String) {capacity : Nat} (hc : 1 ≤ capacity)
    (ha : Snapshot.Addressable capacity) :
    start series host capacity = .ok (root series host capacity) := by
  rw [start, Snapshot.fresh_eq_ok Pool.empty series host hc ha]
  rfl

theorem eq_of_getElem?_root {series : Series} {host : String} {capacity j : Nat} {s : Snapshot}
    (h : (root series host capacity).snapshots[j]? = some s) :
    j = 0 ∧ s = Snapshot.blank Pool.empty series host capacity := by
  rw [root, List.getElem?_toArray, List.getElem?_singleton] at h
  split at h
  · next hj => exact ⟨hj, (Option.some.inj h).symm⟩
  · cases h

theorem sound_root (series : Series) (host : String) {capacity : Nat} (hc : 1 ≤ capacity) :
    (root series host capacity).Each (Snapshot.Sound capacity) #[[]] := by
  refine ⟨rfl, ?_⟩
  intro j s history hs hh
  obtain ⟨rfl, rfl⟩ := eq_of_getElem?_root hs
  obtain rfl := Option.some.inj hh
  exact Snapshot.sound_blank Pool.empty series host hc

theorem sound_add {capacity : Nat} {l : Lineage} {known : Array (List Sample)}
    (h : l.Each (Snapshot.Sound capacity) known) (i : Nat) (x : Sample) :
    (l.add i x).Each (Snapshot.Sound capacity) (branch known (i, x)) :=
  h.add (fun s _ _ _ ho => ho.after s x) (fun _ _ _ _ hs => hs.add x)

/-- **Every snapshot follows its own history**, and fits its tape, after any additions. -/
theorem sound_grow (series : Series) (host : String) {capacity : Nat} (hc : 1 ≤ capacity)
    (additions : List Addition) :
    ((root series host capacity).grow additions).Each (Snapshot.Sound capacity)
      (histories additions) := by
  suffices ∀ (l : Lineage) (known : Array (List Sample)),
      l.Each (Snapshot.Sound capacity) known →
        (l.grow additions).Each (Snapshot.Sound capacity) (additions.foldl branch known) from
    this _ _ (sound_root series host hc)
  induction additions with
  | nil =>
    intro l known h
    exact h
  | cons a rest ih =>
    intro l known h
    exact ih _ _ (sound_add h a.1 a.2)

end Lineage

end MetricStore
