import Mathlib.Data.List.Induction
import MetricStore.Proofs.Tree

/-!
Snapshots that are made of one snapshot.

Several samples are added to one snapshot, one after the other.  The first that is committed may be
written behind its range in place, and if that compacts the tape, the snapshot is recycled; whatever is
committed later goes to a fork of what the snapshot shows by then.  This is still what it showed
before: a range that ends at the head of a full tape lies behind the slots that a compaction fills
(`Span.Made.body_self`).  Nor can a snapshot made earlier be reached by what is made of the same one
later (`Span.OutOfReach`).  Main statement:

* `siblings_show_one_step_each`: each of the new snapshots shows one step of the rules of retention
  from what the old one showed before the first of them, so their order does not matter.
-/

namespace MetricStore

namespace Span

variable {capacity : Nat} {p : Pool} {s o : Span} {latest : Sample} {m : Move} {made : Pool × Span}

/-! ### What a move leaves of the span it is made of -/

/-- The slots of a range that ends at the head are the latest ones, and a compaction fills others. -/
theorem Fits.slice_push_of_stop {t : Tape} (h : s.Fits capacity t)
    (hstop : s.start + s.length = t.head) (x : Sample) :
    (t.push x).slice s.start s.length = t.slice s.start s.length := by
  cases hf : t.isFull with
  | false => exact Tape.slice_push_of_le hf (Nat.le_of_eq hstop) x
  | true =>
    have hfull := (Tape.isFull_iff t).mp hf
    have hpos := h.pos
    have hsize := h.size_eq
    have hlength := h.length_lt
    refine Tape.slice_push_of_keep_lt h.head_le (Nat.le_of_eq hstop) ?_ x
    rw [Tape.keep]
    omega

/-- No move changes what the span holds of which it is made. -/
theorem Made.body_self (h : s.Made p latest m made) (hs : s.Sits capacity p)
    (hm : m.Allowed capacity s.length) : s.body made.1 = s.body p := by
  cases h with
  | replaced => rfl
  | inPlace may =>
    obtain ⟨-, -, hhead⟩ := mayAppend_iff.mp may
    have hdropped := hm.1
    have hstop : s.start + s.length = (p.tape s.tape).head := by omega
    rw [body, body, Pool.tape_put_self p hs.1]
    exact hs.2.slice_push_of_stop hstop _
  | forked => rw [body, body, Pool.tape_add_other p hs.1]

/-! ### Spans that no further move of the same span reaches -/

/-- What is made of `s` from now on does not change what `o` holds: `o` is on another tape, or its range
is that of `s`, or `s` may no longer write in place. -/
def OutOfReach (p : Pool) (s o : Span) : Prop :=
  o.tape ≠ s.tape ∨ (o.tape = s.tape ∧ o.start = s.start ∧ o.length = s.length) ∨
    s.written < (p.tape s.tape).written

/-- A span that has noted fewer writes than were made is given forks only. -/
theorem Made.tape_eq_of_written_lt (h : s.Made p latest m made) (hn : o.tape < p.tapes.size)
    (hlt : s.written < (p.tape s.tape).written) : made.1.tape o.tape = p.tape o.tape := by
  cases h with
  | replaced => rfl
  | inPlace may =>
    obtain ⟨-, hwritten, -⟩ := mayAppend_iff.mp may
    omega
  | forked => exact Pool.tape_add_other p hn _

theorem OutOfReach.body_eq (h : s.OutOfReach p o) (ho : o.Sits capacity p) (hs : s.Sits capacity p)
    (hm : m.Allowed capacity s.length) : o.body (s.move p latest m).1 = o.body p := by
  have hmade := s.made_move p latest m
  rcases h with hne | ⟨htape, hstart, hlength⟩ | hlt
  · rw [body, body, tape_move_other s p latest m ho.1 (Ne.symm hne)]
  · have hself := hmade.body_self hs hm
    rw [body, body] at hself ⊢
    rw [htape, hstart, hlength]
    exact hself
  · rw [body, body, hmade.tape_eq_of_written_lt ho.1 hlt]

/-- Writes are never taken back, so whoever is out of reach stays there. -/
theorem OutOfReach.after (h : s.OutOfReach p o) (hn : s.tape < p.tapes.size) (latest : Sample)
    (m : Move) : s.OutOfReach (s.move p latest m).1 o := by
  rcases h with hne | hsame | hlt
  · exact .inl hne
  · exact .inr (.inl hsame)
  · refine .inr (.inr ?_)
    rcases (tape_move s p latest m hn).2 with ht | ⟨x, ht⟩
    · rw [ht]
      exact hlt
    · rw [ht, Tape.written_push]
      omega

/-- What is made of a span is out of its reach at once: it has the same range, or it made a write, or it
is on a tape of its own. -/
theorem Made.outOfReach (h : s.Made p latest m made) (hn : s.tape < p.tapes.size) :
    s.OutOfReach made.1 made.2 := by
  cases h with
  | replaced => exact .inr (.inl ⟨rfl, rfl, rfl⟩)
  | inPlace may =>
    obtain ⟨-, hwritten, -⟩ := mayAppend_iff.mp may
    refine .inr (.inr ?_)
    rw [Pool.tape_put_self p hn, Tape.written_push]
    omega
  | forked =>
    refine .inl ?_
    rw [tape_grown]
    exact Nat.ne_of_gt hn

end Span

namespace Snapshot

variable {p : Pool} {s o : Snapshot}

/-! ### What is shown -/

/-- What a snapshot shows, with its run and its statistics. -/
def shown (p : Pool) (s : Snapshot) : Replay := ⟨s.samples p, s.run, s.summary⟩

/-- A snapshot shows another thing only if its range holds another thing. -/
theorem shown_congr {q : Pool} (h : s.span.body q = s.span.body p) : s.shown q = s.shown p := by
  rw [shown, shown, samples, samples, Span.samples_eq, Span.samples_eq, h]

theorem follows_shown (h : s.span.Sits s.capacity p) : s.Follows (s.shown p) := by
  refine ⟨rfl, rfl, ?_, h.length_samples.symm⟩
  show s.span.latest = (s.span.samples p).getLast?
  cases hlatest : s.span.latest with
  | none => rw [h.samples_of_none hlatest, List.getLast?_nil]
  | some last => rw [Span.samples_of_some hlatest, List.getLast?_concat]

/-- **One addition is one step.**  What the new snapshot shows follows from what the old one shows. -/
theorem shown_add (h : s.span.Sits s.capacity p) (x : Sample) :
    (s.add p x).2.shown (s.add p x).1 = (s.shown p).add s.capacity x := by
  have hfollows := follows_shown h
  have hsamples := shows_add hfollows h rfl x
  rw [shown, hsamples, replay_add_eq hfollows, add_eq]

/-- The two snapshots are of one capacity, both fit their tapes, and additions to the first do not reach
the second. -/
structure Spares (p : Pool) (s o : Snapshot) : Prop where
  sits : o.span.Sits s.capacity p
  outOfReach : s.span.OutOfReach p o.span

theorem shown_after_self (h : s.span.Sits s.capacity p) (x : Sample) :
    s.shown (s.add p x).1 = s.shown p :=
  shown_congr ((s.made_add p x).body_self h (moveFor_allowed h x))

theorem spares_add (h : s.span.Sits s.capacity p) (x : Sample) :
    s.Spares (s.add p x).1 (s.add p x).2 :=
  ⟨sits_add h x, (s.made_add p x).outOfReach h.1⟩

namespace Spares

theorem add (h : s.Spares p o) (hs : s.span.Sits s.capacity p) (x : Sample) :
    s.Spares (s.add p x).1 o := by
  rw [add_eq]
  exact ⟨h.sits.after s.span x _, h.outOfReach.after hs.1 x _⟩

theorem shown_eq (h : s.Spares p o) (hs : s.span.Sits s.capacity p) (x : Sample) :
    o.shown (s.add p x).1 = o.shown p := by
  rw [add_eq]
  exact shown_congr (h.outOfReach.body_eq h.sits hs (moveFor_allowed hs x))

end Spares

end Snapshot

/-! ### Several additions to one snapshot -/

/-- Each of some samples, added to the snapshot at one position. -/
def siblings (i : Nat) (xs : List Sample) : List Addition := xs.map fun x => (i, x)

theorem siblings_concat (i : Nat) (xs : List Sample) (x : Sample) :
    siblings i (xs ++ [x]) = siblings i xs ++ [(i, x)] := by
  rw [siblings, List.map_append]
  rfl

namespace Lineage

/-- What the snapshots show that have been made since there were `n`. -/
def shownSince (l : Lineage) (n : Nat) : List Replay :=
  (l.snapshots.toList.drop n).map (Snapshot.shown l.pool)

/-- How a tree `l` has gone on to `l'` since samples were added to its snapshot `s`. -/
structure Branches (l : Lineage) (s : Snapshot) (xs : List Sample) (l' : Lineage) : Prop where
  sits : s.span.Sits s.capacity l'.pool
  shown_eq : s.shown l'.pool = s.shown l.pool
  spares : ∃ children : List Snapshot, l'.snapshots = l.snapshots ++ children.toArray ∧
    (∀ o ∈ children, s.Spares l'.pool o) ∧
    children.map (Snapshot.shown l'.pool) = xs.map ((s.shown l.pool).add s.capacity)

namespace Branches

variable {l l' : Lineage} {s : Snapshot} {xs : List Sample} {i : Nat}

theorem getElem?_eq (h : l.Branches s xs l') (hs : l.snapshots[i]? = some s) :
    l'.snapshots[i]? = some s := by
  obtain ⟨children, hsnapshots, -⟩ := h.spares
  rw [hsnapshots, Array.getElem?_append_left (Array.getElem?_eq_some_iff.mp hs).1, hs]

theorem shownSince_eq (h : l.Branches s xs l') :
    l'.shownSince l.snapshots.size = xs.map ((s.shown l.pool).add s.capacity) := by
  obtain ⟨children, hsnapshots, -, hshown⟩ := h.spares
  rw [shownSince, hsnapshots, Array.toList_append, List.drop_left' Array.length_toList]
  exact hshown

/-- One more sample makes one more snapshot, and reaches none of those made before. -/
theorem add (h : l.Branches s xs l') (hs : l.snapshots[i]? = some s) (x : Sample) :
    l.Branches s (xs ++ [x]) (l'.add i x) := by
  have hs' := h.getElem?_eq hs
  obtain ⟨hsits, hself, children, hsnapshots, hspares, hshown⟩ := h
  rw [add_of_some hs']
  refine ⟨?_, ?_, children ++ [(s.add l'.pool x).2], ?_, ?_, ?_⟩
  · show s.span.Sits s.capacity (s.add l'.pool x).1
    rw [Snapshot.add_eq]
    exact hsits.after s.span x _
  · exact (Snapshot.shown_after_self hsits x).trans hself
  · show l'.snapshots.push _ = _
    rw [hsnapshots]
    simp
  · intro o ho
    rcases List.mem_append.mp ho with ho | ho
    · exact (hspares o ho).add hsits x
    · rw [List.mem_singleton.mp ho]
      exact Snapshot.spares_add hsits x
  · rw [List.map_append, List.map_append, ← hshown]
    congr 1
    · exact List.map_congr_left fun o ho => (hspares o ho).shown_eq hsits x
    · show [(s.add l'.pool x).2.shown (s.add l'.pool x).1] = [(s.shown l.pool).add s.capacity x]
      rw [Snapshot.shown_add hsits, hself]

end Branches

theorem branches_grow {l : Lineage} {s : Snapshot} {i : Nat} (hs : l.snapshots[i]? = some s)
    (hsits : s.span.Sits s.capacity l.pool) (xs : List Sample) :
    l.Branches s xs (l.grow (siblings i xs)) := by
  induction xs using List.reverseRecOn with
  | nil => exact ⟨hsits, rfl, [], Array.append_empty.symm, fun o ho => absurd ho List.not_mem_nil, rfl⟩
  | append_singleton xs x ih =>
    rw [siblings_concat, grow_concat]
    exact ih.add hs x

end Lineage

/-- **Siblings do not disturb each other.**  Samples are added to one snapshot of any tree, recycled or
not, one directly after the other.  Whatever is pushed, merged or collapsed, written in place, compacted
or forked on the way: when all are made, each new snapshot shows one step of the rules of retention from
what the old one showed before the first of them, and the old one still shows that.  So another order of
the samples makes the same snapshots in that order. -/
theorem siblings_show_one_step_each (series : Series) (host : String) {capacity : Nat}
    (hc : 1 ≤ capacity) (ha : Snapshot.Addressable capacity) :
    ∃ l, Lineage.start series host capacity = .ok l ∧
      ∀ (additions : List Addition) (i : Nat) (s : Snapshot),
        (l.grow additions).snapshots[i]? = some s → ∀ xs : List Sample,
          (l.grow (additions ++ siblings i xs)).snapshots[i]? = some s ∧
          s.shown (l.grow (additions ++ siblings i xs)).pool = s.shown (l.grow additions).pool ∧
          (l.grow (additions ++ siblings i xs)).shownSince (l.grow additions).snapshots.size =
            xs.map ((s.shown (l.grow additions).pool).add capacity) ∧
          (∀ o ∈ (l.grow (additions ++ siblings i xs)).snapshots,
            o.size = (o.samples (l.grow (additions ++ siblings i xs)).pool).length) ∧
          ∀ ys : List Sample, ys.Perm xs →
            ((l.grow (additions ++ siblings i ys)).shownSince (l.grow additions).snapshots.size).Perm
              ((l.grow (additions ++ siblings i xs)).shownSince (l.grow additions).snapshots.size) := by
  refine ⟨Lineage.root series host capacity, Lineage.start_eq_ok series host hc ha, ?_⟩
  intro additions i s hs xs
  have hbefore := Lineage.sound_grow series host hc additions
  obtain ⟨history, hh⟩ := hbefore.exists_history hs
  have hsound := hbefore.holds hs hh
  have hbranches : ∀ ys, ((Lineage.root series host capacity).grow additions).Branches s ys
      ((Lineage.root series host capacity).grow (additions ++ siblings i ys)) := by
    intro ys
    rw [Lineage.grow_append]
    exact Lineage.branches_grow hs hsound.sits' ys
  have hshown := fun ys => (hbranches ys).shownSince_eq
  rw [hsound.capacity_eq] at hshown
  refine ⟨(hbranches xs).getElem?_eq hs, (hbranches xs).shown_eq, hshown xs, ?_, ?_⟩
  · intro o ho
    obtain ⟨j, hj⟩ := Array.mem_iff_getElem?.mp ho
    have hafter := Lineage.sound_grow series host hc (additions ++ siblings i xs)
    obtain ⟨history', hh'⟩ := hafter.exists_history hj
    exact (hafter.holds hj hh').sits.length_samples.symm
  · intro ys hperm
    rw [hshown, hshown]
    exact hperm.map _

/-- Four samples and a run of four, which fill the slots at capacity three. -/
def stalled : List Sample :=
  [⟨1, 1⟩, ⟨2, 2⟩, ⟨3, 3⟩, ⟨4, 4⟩, ⟨5, 5⟩, ⟨6, 5⟩, ⟨7, 5⟩, ⟨8, 5⟩]

/-- Two samples that make the run a long one, and a change between them. -/
def resumptions : List Sample := [⟨9, 5⟩, ⟨9, 8⟩, ⟨10, 5⟩]

/-- The first of three siblings compacts the tape in place, which recycles the snapshot that all are
made of; the other two are made as if it had not. -/
theorem siblings_show_one_step_each_recycling :
    (1 ≤ 3 ∧ Snapshot.Addressable 3) ∧
      ∃ l s, Lineage.start (Series.ofName "load") "server" 3 = .ok l ∧
        (l.grow (inTurn stalled)).snapshots[8]? = some s ∧
        s.span.isRecycled (l.grow (inTurn stalled)).pool = false ∧
        s.span.isRecycled (l.grow (inTurn stalled ++ siblings 8 resumptions)).pool = true ∧
        s.samples (l.grow (inTurn stalled ++ siblings 8 resumptions)).pool =
          [⟨4, 4⟩, ⟨5, 5⟩, ⟨8, 5⟩] ∧
        ((l.grow (inTurn stalled ++ siblings 8 resumptions)).shownSince 9).map Replay.samples =
          [[⟨5, 5⟩, ⟨9, 5⟩], [⟨5, 5⟩, ⟨8, 5⟩, ⟨9, 8⟩], [⟨5, 5⟩, ⟨10, 5⟩]] ∧
        ((l.grow (inTurn stalled ++ siblings 8 resumptions.reverse)).shownSince 9).Perm
          ((l.grow (inTurn stalled ++ siblings 8 resumptions)).shownSince 9) := by
  refine ⟨⟨by decide, by decide⟩, ?_⟩
  obtain ⟨l, hl, h⟩ :=
    @siblings_show_one_step_each (Series.ofName "load") "server" 3 (by decide) (by decide)
  have hroot := hl
  rw [Lineage.start_eq_ok _ _ (by decide) (by decide)] at hroot
  cases hroot
  obtain ⟨-, hself, hshown, -, hperm⟩ := h (inTurn stalled) 8 _ rfl resumptions
  refine ⟨_, _, hl, rfl, by decide, by decide, ?_, ?_, ?_⟩
  · exact (congrArg Replay.samples hself).trans (by decide)
  · exact (congrArg (List.map Replay.samples) hshown).trans (by decide)
  · exact hperm resumptions.reverse resumptions.reverse_perm

end MetricStore
