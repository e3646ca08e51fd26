import Mathlib.Data.List.Induction
import MetricStore.Proofs.Branching
import MetricStore.Proofs.Runs

/-!
What a snapshot that is not outdated can be trusted to show.

Additions may be made to recycled snapshots too.  A push to one of them copies slots that may hold
samples of another branch to a fork, and nothing on the fork tells of that.  Main statements:

* `honest_iff_pushes_own`: in a tree of any additions, every snapshot that is not outdated shows
  its own samples at every moment, if and only if every push was made to a snapshot that still
  showed its own samples as far as the push keeps them;
* `not_always_honest`: eight samples at capacity three for which this fails;
* `Lineage.honest_of_capacity_le_two`: with less room it never does.
-/

namespace MetricStore

open Retention (lastOf)

namespace Snapshot

/-- What a push keeps of the samples that a snapshot shows is what it would keep of its own. -/
def KeepsOwn (capacity : Nat) (p : Pool) (history : List Sample) (s : Snapshot) : Prop :=
  lastOf (capacity - 1) (s.samples p) =
    lastOf (capacity - 1) (Replay.ofHistory capacity history).samples

variable {capacity : Nat} {p : Pool} {history : List Sample} {s : Snapshot}

theorem moveFor_push {x : Sample} (h : s.action x = .push) :
    s.moveFor p x = s.span.pushMove s.capacity := by
  rw [moveFor, h]

/-- A push makes a snapshot that shows its own samples exactly if the samples it keeps are. -/
theorem Sound.showsOwn_push_iff (h : s.Sound capacity p history) {x : Sample}
    (hx : s.action x = .push) :
    (s.add p x).2.ShowsOwn capacity (s.add p x).1 (history ++ [x]) ↔
      s.KeepsOwn capacity p history := by
  obtain ⟨rfl, hsits, hf⟩ := h
  have hlen : (s.samples p).length ≤ s.capacity := by
    show (s.span.samples p).length ≤ s.capacity
    rw [hsits.length_samples]
    exact hsits.size_le
  rw [ShowsOwn, Replay.ofHistory_concat, samples_add hsits, replay_add_eq hf, hx,
    Retention.apply_push hsits.2.pos hlen,
    Retention.apply_push hsits.2.pos (Replay.length_samples_le hsits.2.pos history), KeepsOwn]
  exact List.append_left_inj [x]

theorem current_of_live_add (hr : s.span.isRecycled p = true) {x : Sample}
    (hl : (s.add p x).2.span.isRecycled (s.add p x).1 = false) :
    (s.add p x).2.isOutdated (s.add p x).1 = false := by
  rw [add_eq] at hl ⊢
  rw [isOutdated, Span.isOutdated_eq_false_iff, Span.seen_move_of_recycled hr x]
  exact Span.isRecycled_eq_false_iff.mp hl

/-- A push makes a snapshot that is not recycled, if it keeps anything from the slots. -/
theorem Sound.live_push (h : s.Sound capacity p history) {x : Sample} (hx : s.action x = .push)
    (hlen : s.span.length ≠ 0) : (s.add p x).2.span.isRecycled (s.add p x).1 = false := by
  have hmove : ∃ dropped y, s.moveFor p x = .commit dropped y := by
    rw [moveFor_push hx, Span.pushMove]
    cases hlatest : s.span.latest with
    | none => exact absurd (h.sits.2.length_of_none hlatest) hlen
    | some last =>
      simp only [if_neg hlen]
      split
      · exact ⟨_, _, rfl⟩
      · exact ⟨_, _, rfl⟩
  obtain ⟨dropped, y, hmove⟩ := hmove
  rw [add_eq, hmove]
  exact Span.isRecycled_move_commit h.sits x y dropped

/-- What an addition makes of a snapshot that keeps its own is recycled or shows its own. -/
theorem Sound.showsOwn_of_keepsOwn (h : s.Sound capacity p history)
    (hs : s.span.isRecycled p = false → s.ShowsOwn capacity p history) {x : Sample}
    (hx : s.action x = .push → s.KeepsOwn capacity p history)
    (hl : (s.add p x).2.span.isRecycled (s.add p x).1 = false) :
    (s.add p x).2.ShowsOwn capacity (s.add p x).1 (history ++ [x]) := by
  cases hr : s.span.isRecycled p with
  | false => exact h.showsOwn_add (hs hr) x
  | true =>
    cases ha : s.action x with
    | push => exact (h.showsOwn_push_iff ha).mpr (hx ha)
    | merge =>
      -- a merge shares the recycled range
      have hmove : s.moveFor p x = .replace := by rw [moveFor, ha]
      rw [add_eq, hmove] at hl
      exact Bool.noConfusion (hr.symm.trans hl)
    | collapse =>
      -- a collapse keeps nothing of what is shown
      obtain ⟨rfl, hsits, hf⟩ := h
      rw [ShowsOwn, Replay.ofHistory_concat, samples_add hsits, replay_add_eq hf, ha]
      rfl

/-- The latest sample is its own, whatever the tape holds. -/
theorem Sound.getLast?_samples (h : s.Sound capacity p history) :
    (s.samples p).getLast? = (Replay.ofHistory capacity history).samples.getLast? := by
  rw [← h.follows.latest_eq]
  show (s.span.samples p).getLast? = s.span.latest
  cases hlatest : s.span.latest with
  | none => rw [h.sits.samples_of_none hlatest, List.getLast?_nil]
  | some last => rw [Span.samples_of_some hlatest, List.getLast?_concat]

theorem Sound.keepsOwn_of_le_two (h : s.Sound capacity p history) (hc : capacity ≤ 2) :
    s.KeepsOwn capacity p history :=
  Retention.lastOf_congr (by omega) h.getLast?_samples

end Snapshot

namespace Lineage

/-- At no moment does a snapshot that is not outdated show other samples than its own. -/
def Honest (capacity : Nat) (l : Lineage) (additions : List Addition) : Prop :=
  ∀ earlier, earlier <+: additions → ∀ (j : Nat) (s : Snapshot) (history : List Sample),
    (l.grow earlier).snapshots[j]? = some s → (histories earlier)[j]? = some history →
      s.isOutdated (l.grow earlier).pool = false →
        s.ShowsOwn capacity (l.grow earlier).pool history

/-- Every push is made to a snapshot that still shows its own samples as far as it keeps them. -/
def PushesOwn (capacity : Nat) (l : Lineage) (additions : List Addition) : Prop :=
  ∀ earlier i x, earlier ++ [(i, x)] <+: additions → ∀ (s : Snapshot) (history : List Sample),
    (l.grow earlier).snapshots[i]? = some s → (histories earlier)[i]? = some history →
      s.action x = .push → s.KeepsOwn capacity (l.grow earlier).pool history

variable {capacity : Nat} {l : Lineage} {additions : List Addition}

theorem Honest.of_prefix (h : l.Honest capacity additions) {earlier : List Addition}
    (he : earlier <+: additions) : l.Honest capacity earlier := by
  intro first hfirst
  exact h first (hfirst.trans he)

theorem PushesOwn.of_prefix (h : l.PushesOwn capacity additions) {earlier : List Addition}
    (he : earlier <+: additions) : l.PushesOwn capacity earlier := by
  intro first i x hfirst
  exact h first i x (hfirst.trans he)

theorem liveShowsOwn_of_pushesOwn (hl : l.Each (LiveShowsOwn capacity) #[[]])
    (h : l.PushesOwn capacity additions) :
    (l.grow additions).Each (LiveShowsOwn capacity) (histories additions) := by
  induction additions using List.reverseRecOn with
  | nil => exact hl
  | append_singleton earlier a ih =>
    have hbefore := ih (h.of_prefix (List.prefix_append earlier [a]))
    rw [grow_concat, histories_concat]
    refine liveShowsOwn_add hbefore ?_
    intro s history hs hh hlive
    obtain ⟨hsound, hshow⟩ := hbefore.holds hs hh
    exact hsound.showsOwn_of_keepsOwn hshow
      (h earlier a.1 a.2 (List.prefix_refl _) s history hs hh) hlive

/-- A tree whose pushes keep their own is honest. -/
theorem honest_of_pushesOwn (hl : l.Each (LiveShowsOwn capacity) #[[]])
    (h : l.PushesOwn capacity additions) : l.Honest capacity additions := by
  intro earlier he j s history hs hh ho
  obtain ⟨hsound, hshow⟩ := (liveShowsOwn_of_pushesOwn hl (h.of_prefix he)).holds hs hh
  exact hshow (hsound.sits.live_of_current ho)

/-- In an honest tree, what an addition makes of a recycled snapshot shows its own samples, if it
is not recycled itself. -/
theorem Honest.showsOwn_new {earlier : List Addition} {i : Nat} {x : Sample}
    (h : l.Honest capacity (earlier ++ [(i, x)]))
    (hsize : (histories earlier).size = (l.grow earlier).snapshots.size) {s : Snapshot}
    {history : List Sample} (hs : (l.grow earlier).snapshots[i]? = some s)
    (hh : (histories earlier)[i]? = some history)
    (hr : s.span.isRecycled (l.grow earlier).pool = true)
    (hlive : (s.add (l.grow earlier).pool x).2.span.isRecycled
      (s.add (l.grow earlier).pool x).1 = false) :
    (s.add (l.grow earlier).pool x).2.ShowsOwn capacity (s.add (l.grow earlier).pool x).1
      (history ++ [x]) := by
  have hnow := h _ (List.prefix_refl _) (l.grow earlier).snapshots.size
  rw [grow_concat, histories_concat, add_of_some hs, branch, hh] at hnow
  have hlast : ((histories earlier).push (history ++ [x]))[(l.grow earlier).snapshots.size]? =
      some (history ++ [x]) := by
    rw [← hsize]
    exact Array.getElem?_push_size
  exact hnow _ _ Array.getElem?_push_size hlast (Snapshot.current_of_live_add hr hlive)

theorem liveShowsOwn_of_honest (hl : l.Each (LiveShowsOwn capacity) #[[]])
    (h : l.Honest capacity additions) :
    (l.grow additions).Each (LiveShowsOwn capacity) (histories additions) := by
  induction additions using List.reverseRecOn with
  | nil => exact hl
  | append_singleton earlier a ih =>
    have hbefore := ih (h.of_prefix (List.prefix_append earlier [a]))
    rw [grow_concat, histories_concat]
    refine liveShowsOwn_add hbefore ?_
    intro s history hs hh hlive
    obtain ⟨hsound, hshow⟩ := hbefore.holds hs hh
    cases hr : s.span.isRecycled (l.grow earlier).pool with
    | false => exact hsound.showsOwn_add (hshow hr) a.2
    | true =>
      -- what is made of a recycled snapshot is not outdated, so honesty speaks of it
      exact h.showsOwn_new hbefore.size_eq hs hh hr hlive

/-- In an honest tree every push keeps its own. -/
theorem pushesOwn_of_honest (hl : l.Each (LiveShowsOwn capacity) #[[]])
    (h : l.Honest capacity additions) : l.PushesOwn capacity additions := by
  intro earlier i x he s history hs hh hx
  have hto := h.of_prefix he
  have hbefore := liveShowsOwn_of_honest hl (hto.of_prefix (List.prefix_append earlier [(i, x)]))
  obtain ⟨hsound, hshow⟩ := hbefore.holds hs hh
  cases hr : s.span.isRecycled (l.grow earlier).pool with
  | false => exact congrArg (lastOf (capacity - 1)) (hshow hr)
  | true =>
    by_cases hlen : s.span.length = 0
    · -- nothing is kept from the slots
      exact congrArg (lastOf (capacity - 1))
        (Snapshot.shows_of_length_eq_zero hsound.follows hsound.sits' hlen)
    · have hlive := hsound.live_push hx hlen
      exact (hsound.showsOwn_push_iff hx).mp
        (hto.showsOwn_new hbefore.size_eq hs hh hr hlive)

/-- With room for two samples at most, whatever is kept is not read from the tape. -/
theorem honest_of_capacity_le_two (series : Series) (host : String) (hc : 1 ≤ capacity)
    (hle : capacity ≤ 2) (additions : List Addition) :
    (root series host capacity).Honest capacity additions := by
  refine honest_of_pushesOwn (liveShowsOwn_root series host hc) ?_
  intro earlier i x _ s history hs hh _
  exact ((sound_grow series host hc earlier).holds hs hh).keepsOwn_of_le_two hle

end Lineage

/-- **When the flag can be trusted.**  Whatever the additions are made to: at every moment every
snapshot that is not outdated shows what the rules of retention leave of its own history, if and
only if each push was made to a snapshot which at that moment still showed, among its latest
samples and one fewer than the capacity, those of its own history. -/
theorem honest_iff_pushes_own (series : Series) (host : String) {capacity : Nat}
    (hc : 1 ≤ capacity) (ha : Snapshot.Addressable capacity) :
    ∃ l, Lineage.start series host capacity = .ok l ∧
      ∀ additions : List Addition,
        l.Honest capacity additions ↔ l.PushesOwn capacity additions := by
  have hroot := Lineage.liveShowsOwn_root series host hc
  refine ⟨Lineage.root series host capacity, Lineage.start_eq_ok series host hc ha, ?_⟩
  intro additions
  constructor
  · intro h
    exact Lineage.pushesOwn_of_honest hroot h
  · intro h
    exact Lineage.honest_of_pushesOwn hroot h

/-- Seven samples in turn, and an eighth that is added to the snapshot of the first two. -/
def belated : List Addition :=
  inTurn [⟨1, 1⟩, ⟨2, 2⟩, ⟨3, 3⟩, ⟨4, 4⟩, ⟨5, 5⟩, ⟨6, 6⟩, ⟨7, 7⟩] ++ [(2, ⟨8, 8⟩)]

/-- At capacity three the last push is made to a snapshot that shows the fourth sample in the place
of the first, so what it makes is not outdated and shows a sample that it was never given. -/
theorem honest_iff_pushes_own_belated :
    (1 ≤ 3 ∧ Snapshot.Addressable 3) ∧
      ∃ l, Lineage.start (Series.ofName "load") "server" 3 = .ok l ∧
        ¬ l.PushesOwn 3 belated ∧ ¬ l.Honest 3 belated := by
  refine ⟨⟨by decide, by decide⟩, ?_⟩
  obtain ⟨l, hl, h⟩ :=
    @honest_iff_pushes_own (Series.ofName "load") "server" 3 (by decide) (by decide)
  rw [Lineage.start_eq_ok _ _ (by decide) (by decide)] at hl
  cases hl
  refine ⟨_, Lineage.start_eq_ok _ _ (by decide) (by decide), ?_⟩
  have hpush : ¬ (Lineage.root (Series.ofName "load") "server" 3).PushesOwn 3 belated := by
    intro hown
    have hkept : Retention.lastOf 2 [(⟨4, 4⟩ : Sample), ⟨2, 2⟩] =
        Retention.lastOf 2 [⟨1, 1⟩, ⟨2, 2⟩] :=
      hown _ 2 ⟨8, 8⟩ (List.prefix_refl _) _ _ rfl rfl (by decide)
    exact absurd hkept (by decide)
  exact ⟨hpush, fun hhonest => hpush ((h belated).mp hhonest)⟩

/-- Seven samples at capacity three compact the tape that the snapshot of the first two reads.  The
eighth is added to that snapshot: the push copies the fourth sample in the place of the first, to a
tape on which nothing was ever moved. -/
theorem not_always_honest :
    ¬ ∀ (series : Series) (host : String) (capacity : Nat) (l : Lineage)
      (additions : List Addition), Lineage.start series host capacity = .ok l →
        l.Honest capacity additions := by
  intro h
  have hstale := h (Series.ofName "load") "server" 3 _ belated
    (Lineage.start_eq_ok _ _ (by decide) (by decide)) _ (List.prefix_refl _) 8 _ _ rfl rfl
    (by decide)
  have hshown : [(⟨4, 4⟩ : Sample), ⟨2, 2⟩, ⟨8, 8⟩] = [⟨1, 1⟩, ⟨2, 2⟩, ⟨8, 8⟩] := hstale
  exact absurd hshown (by decide)

end MetricStore
