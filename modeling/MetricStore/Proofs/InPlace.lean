import MetricStore.Proofs.Schedule
import MetricStore.Proofs.Staleness

/-!
Who may write to a tape in place.

A span may prolong its range where it is if nothing was written to its tape since it was made.  Several
spans can be in that position: those that replace the latest sample of another note the same number of
writes.  The first of them that commits takes the right from all the others, for good, since a tape
never counts fewer writes than before.  Main statement:

* `writes_in_place_exclusive`: who has the right, who uses it, and what becomes of the others and of
  the slots, at every stage of any additions.

Design notes: a write in place is said of the tape (`Lineage.WritesTo`) and not of the check; that only
those who pass the check make one is `Lineage.writesTo_iff`.
-/

namespace MetricStore

namespace Tape

theorem push_ne_self (t : Tape) (x : Sample) : t.push x ≠ t := by
  intro h
  have hwritten := written_push t x
  rw [h] at hwritten
  omega

/-- What stands below the head of a tape stands there on another one, which may have more. -/
def Extends (u t : Tape) : Prop := t.head ≤ u.head ∧ ∀ i < t.head, u.slot? i = t.slot? i

theorem extends_refl (t : Tape) : t.Extends t := ⟨Nat.le_refl _, fun _ _ => rfl⟩

theorem Extends.trans {t u v : Tape} (h : v.Extends u) (h' : u.Extends t) : v.Extends t :=
  ⟨Nat.le_trans h'.1 h.1,
    fun i hi => (h.2 i (Nat.lt_of_lt_of_le hi h'.1)).trans (h'.2 i hi)⟩

/-- A push within an epoch goes behind what stands there. -/
theorem extends_push {t : Tape} {x : Sample} (he : (t.push x).epoch = t.epoch) :
    (t.push x).Extends t := by
  cases hf : t.isFull with
  | true =>
    rw [epoch_push, if_pos hf] at he
    exact absurd he (Nat.succ_ne_self _)
  | false =>
    rw [push_of_not_full hf]
    exact ⟨Nat.le_succ _, fun i hi => slot?_write_of_ne (Nat.ne_of_lt hi) x⟩

end Tape

namespace Span

variable {capacity : Nat} {p : Pool} {s : Span}

/-- The range may be prolonged where it is. -/
def mayProlong (s : Span) (p : Pool) : Bool := s.mayAppend (p.tape s.tape) (s.start + s.length)

/-- The number of writes alone tells who may: if it is as noted, epoch and head are too. -/
theorem Sits.mayProlong_iff (h : s.Sits capacity p) : s.mayProlong p = true ↔ s.IsWriter p := by
  constructor
  · intro hmay
    obtain ⟨-, hwritten, -⟩ := mayAppend_iff.mp hmay
    exact hwritten.symm
  · intro hwriter
    exact h.mayAppend_of_isWriter hwriter (Nat.zero_le s.length)

theorem stop_eq_head (h : s.mayProlong p = true) : s.start + s.length = (p.tape s.tape).head := by
  obtain ⟨-, -, hhead⟩ := mayAppend_iff.mp h
  exact hhead.symm

/-- A commit may give up slots at the front of the range, which does not matter to the check. -/
theorem mayAppend_of_dropped_le {dropped : Nat} (h : dropped ≤ s.length) :
    s.mayAppend (p.tape s.tape) (s.start + dropped + (s.length - dropped)) = s.mayProlong p := by
  rw [mayProlong, Nat.add_assoc, Nat.add_sub_cancel' h]

/-- A move writes to a tape in place exactly if it commits a sample, the tape is that of the span and
the span may write there. -/
theorem Made.tape_eq_push_iff {latest : Sample} {m : Move} {made : Pool × Span}
    (h : s.Made p latest m made) (hm : m.Allowed capacity s.length) {name : Nat}
    (hn : name < p.tapes.size) :
    (∃ y, made.1.tape name = (p.tape name).push y) ↔
      s.tape = name ∧ s.mayProlong p = true ∧ m.IsCommit := by
  have hself : ¬ ∃ y, p.tape name = (p.tape name).push y :=
    fun ⟨y, hy⟩ => Tape.push_ne_self _ y hy.symm
  cases h with
  | replaced => exact iff_of_false hself (fun hw => hw.2.2)
  | @inPlace dropped x may =>
    by_cases hname : s.tape = name
    · subst hname
      rw [mayAppend_of_dropped_le hm.1] at may
      exact iff_of_true ⟨x, Pool.tape_put_self p hn _⟩ ⟨rfl, may, trivial⟩
    · rw [Pool.tape_put_other p hname]
      exact iff_of_false hself (fun hw => hname hw.1)
  | forked mayNot =>
    -- a fork is a new tape, and leaves the old ones alone
    rw [mayAppend_of_dropped_le hm.1] at mayNot
    rw [Pool.tape_add_other p hn]
    refine iff_of_false hself ?_
    rintro ⟨-, hw, -⟩
    rw [mayNot] at hw
    cases hw

end Span

namespace Lineage

/-! ### Writes in place -/

/-- An addition writes to a tape that is there, in place. -/
def WritesTo (l : Lineage) (name : Nat) (a : Addition) : Prop :=
  name < l.pool.tapes.size ∧ ∃ y, (l.add a.1 a.2).pool.tape name = (l.pool.tape name).push y

variable {l : Lineage} {capacity name : Nat} {known : Array (List Sample)}

theorem Each.exists_of_mem {P : Pool → List Sample → Snapshot → Prop} (h : l.Each P known)
    {s : Snapshot} (hs : s ∈ l.snapshots) : ∃ history, P l.pool history s := by
  obtain ⟨j, hj⟩ := Array.mem_iff_getElem?.mp hs
  obtain ⟨history, hh⟩ := h.exists_history hj
  exact ⟨history, h.holds hj hh⟩

/-- Those who write in place have the right to. -/
theorem writesTo_iff (h : l.Each (Snapshot.Sound capacity) known) (name i : Nat) (x : Sample) :
    l.WritesTo name (i, x) ↔ ∃ s, l.snapshots[i]? = some s ∧ s.span.tape = name ∧
      s.span.mayProlong l.pool = true ∧ (s.moveFor l.pool x).IsCommit := by
  cases hi : l.snapshots[i]? with
  | none =>
    refine iff_of_false ?_ (fun ⟨s, hs, _⟩ => by cases hs)
    rintro ⟨-, y, hy⟩
    rw [add_of_none hi] at hy
    exact Tape.push_ne_self _ y hy.symm
  | some s =>
    obtain ⟨history, hsound⟩ := h.exists_of_mem (Array.mem_of_getElem? hi)
    rw [WritesTo, add_of_some hi]
    have hmade := s.made_add l.pool x
    have hallowed := hsound.moveFor_allowed x
    constructor
    · rintro ⟨hn, hy⟩
      exact ⟨s, rfl, (hmade.tape_eq_push_iff hallowed hn).mp hy⟩
    · rintro ⟨t, ht, hs⟩
      obtain rfl := Option.some.inj ht
      have hn : name < l.pool.tapes.size := hs.1 ▸ hsound.sits.1
      exact ⟨hn, (hmade.tape_eq_push_iff hallowed hn).mpr hs⟩

/-! ### What only grows -/

theorem written_le_add (hn : name < l.pool.tapes.size) (i : Nat) (x : Sample) :
    (l.pool.tape name).written ≤ ((l.add i x).pool.tape name).written := by
  obtain ht | ⟨s, y, -, -, ht⟩ := tape_add hn i x
  · exact Nat.le_of_eq (congrArg Tape.written ht.symm)
  · rw [ht, Tape.written_push]
    exact Nat.le_succ _

theorem written_le_grow (hn : name < l.pool.tapes.size) (later : List Addition) :
    (l.pool.tape name).written ≤ ((l.grow later).pool.tape name).written := by
  induction later generalizing l with
  | nil => exact Nat.le_refl _
  | cons a rest ih =>
    exact Nat.le_trans (written_le_add hn a.1 a.2) (ih (lt_size_add hn a.1 a.2))

theorem extends_add (hn : name < l.pool.tapes.size) {i : Nat} {x : Sample}
    (he : ((l.add i x).pool.tape name).epoch = (l.pool.tape name).epoch) :
    ((l.add i x).pool.tape name).Extends (l.pool.tape name) := by
  obtain ht | ⟨s, y, -, -, ht⟩ := tape_add hn i x
  · rw [ht]
    exact Tape.extends_refl _
  · rw [ht] at he ⊢
    exact Tape.extends_push he

/-- Within an epoch nothing that was written is overwritten. -/
theorem extends_grow (hn : name < l.pool.tapes.size) {later : List Addition}
    (he : ((l.grow later).pool.tape name).epoch = (l.pool.tape name).epoch) :
    ((l.grow later).pool.tape name).Extends (l.pool.tape name) := by
  induction later generalizing l with
  | nil => exact Tape.extends_refl _
  | cons a rest ih =>
    -- epochs never go back, so it is the same one on the way
    have hadd := epoch_le_add hn a.1 a.2
    have hgrow := epoch_le_grow (lt_size_add hn a.1 a.2) rest
    have hlast : ((l.grow (a :: rest)).pool.tape name).epoch =
        (((l.add a.1 a.2).grow rest).pool.tape name).epoch := rfl
    exact (ih (lt_size_add hn a.1 a.2) (by omega)).trans (extends_add hn (by omega))

/-! ### Stages -/

/-- The tree when so many of the additions have been made. -/
def stage (l : Lineage) (additions : List Addition) (m : Nat) : Lineage := l.grow (additions.take m)

/-- The addition at this position writes to a tape in place, when so much has been written there. -/
def WritesAt (l : Lineage) (additions : List Addition) (m name count : Nat) : Prop :=
  ∃ a, additions[m]? = some a ∧ (l.stage additions m).WritesTo name a ∧
    ((l.stage additions m).pool.tape name).written = count

variable {additions : List Addition} {m n count : Nat}

theorem stage_succ {a : Addition} (h : additions[m]? = some a) :
    l.stage additions (m + 1) = (l.stage additions m).add a.1 a.2 := by
  rw [stage, List.take_add_one, h]
  exact grow_concat l (additions.take m) a.1 a.2

theorem stage_eq_grow (l : Lineage) (additions : List Addition) (h : m ≤ n) :
    l.stage additions n = (l.stage additions m).grow ((additions.take n).drop m) := by
  have htake : additions.take m = (additions.take n).take m := by
    rw [List.take_take, Nat.min_eq_left h]
  rw [stage, stage, ← grow_append, htake, List.take_append_drop]

theorem extends_stage (hmn : m ≤ n) (hname : name < (l.stage additions m).pool.tapes.size)
    (he : ((l.stage additions n).pool.tape name).epoch =
      ((l.stage additions m).pool.tape name).epoch) :
    ((l.stage additions n).pool.tape name).Extends ((l.stage additions m).pool.tape name) := by
  rw [stage_eq_grow l additions hmn] at he ⊢
  exact extends_grow hname he

/-- After a write in place the tape counts more writes, at every later stage. -/
theorem WritesAt.count_lt (h : l.WritesAt additions m name count) (hn : m < n) :
    count < ((l.stage additions n).pool.tape name).written := by
  obtain ⟨a, ha, ⟨hname, y, hy⟩, rfl⟩ := h
  have hname' := lt_size_add hname a.1 a.2
  rw [← stage_succ ha] at hy hname'
  have hle := written_le_grow hname' ((additions.take n).drop (m + 1))
  rw [← stage_eq_grow l additions (Nat.succ_le_of_lt hn), hy, Tape.written_push] at hle
  exact hle

/-- Two writes to a tape at the same count are one. -/
theorem WritesAt.position_eq (hm : l.WritesAt additions m name count)
    (hn : l.WritesAt additions n name count) : m = n := by
  rcases Nat.lt_trichotomy m n with hlt | heq | hgt
  · obtain ⟨-, -, -, hcount⟩ := hn
    exact absurd hcount (Nat.ne_of_gt (hm.count_lt hlt))
  · exact heq
  · obtain ⟨-, -, -, hcount⟩ := hm
    exact absurd hcount (Nat.ne_of_gt (hn.count_lt hgt))

/-- Whoever was there before a write in place may not write to that tape ever after. -/
theorem WritesAt.mayProlong_eq_false (h : l.WritesAt additions m name count) (hn : m < n)
    {s : Snapshot} (hs : s.span.Sits capacity (l.stage additions m).pool)
    (ht : s.span.tape = name) : s.span.mayProlong (l.stage additions n).pool = false := by
  have hlt := h.count_lt hn
  obtain ⟨-, -, -, hcount⟩ := h
  have hnoted := hs.2.written_le
  rw [ht] at hnoted
  rw [Bool.eq_false_iff]
  intro hmay
  obtain ⟨-, hwritten, -⟩ := Span.mayAppend_iff.mp hmay
  rw [ht] at hwritten
  omega

/-! ### The exclusive right -/

/-- What is known of the right to write in place, at all stages of these additions. -/
structure WritesExclusively (l : Lineage) (additions : List Addition) : Prop where
  /-- The number of writes alone tells who has the right. -/
  isWriter_iff : ∀ m, ∀ s ∈ (l.stage additions m).snapshots,
    s.span.IsWriter (l.stage additions m).pool ↔
      s.span.mayProlong (l.stage additions m).pool = true
  stop_eq_head : ∀ m, ∀ s ∈ (l.stage additions m).snapshots,
    s.span.mayProlong (l.stage additions m).pool = true →
      s.span.start + s.span.length = ((l.stage additions m).pool.tape s.span.tape).head
  /-- A commit is made in place by those who have the right, and by nobody else. -/
  writesTo_iff : ∀ m name i x, (l.stage additions m).WritesTo name (i, x) ↔
    ∃ s, (l.stage additions m).snapshots[i]? = some s ∧ s.span.tape = name ∧
      s.span.mayProlong (l.stage additions m).pool = true ∧
      (s.moveFor (l.stage additions m).pool x).IsCommit
  /-- It is used once at each count of writes. -/
  once : ∀ m n name count, l.WritesAt additions m name count →
    l.WritesAt additions n name count → m = n
  /-- Then all who were there before have lost it. -/
  lost : ∀ m n name count, l.WritesAt additions m name count → m < n →
    ∀ s ∈ (l.stage additions m).snapshots, s.span.tape = name →
      s.span.mayProlong (l.stage additions n).pool = false
  /-- What was written stays where it is until the epoch changes. -/
  kept : ∀ m n name, m ≤ n → name < (l.stage additions m).pool.tapes.size →
    ((l.stage additions n).pool.tape name).epoch = ((l.stage additions m).pool.tape name).epoch →
      ((l.stage additions n).pool.tape name).Extends ((l.stage additions m).pool.tape name)

end Lineage

/-- **The right to write in place is exclusive.**  Whatever the additions are made to: a snapshot has the
right to write to its tape where its range ends exactly if as much has been written there as it has
noted; nobody else writes to a tape that is there; at each count of writes the right is used once at
most, and all who were there before have lost it from then on; so within an epoch no slot that was
written is written again. -/
theorem writes_in_place_exclusive (series : Series) (host : String) {capacity : Nat}
    (hc : 1 ≤ capacity) (ha : Snapshot.Addressable capacity) :
    ∃ l, Lineage.start series host capacity = .ok l ∧
      ∀ additions : List Addition, l.WritesExclusively additions := by
  refine ⟨Lineage.root series host capacity, Lineage.start_eq_ok series host hc ha, ?_⟩
  intro additions
  have hsound := fun m => Lineage.sound_grow series host hc (additions.take m)
  have hsits : ∀ m, ∀ s ∈ ((Lineage.root series host capacity).stage additions m).snapshots,
      s.span.Sits capacity ((Lineage.root series host capacity).stage additions m).pool := by
    intro m s hs
    obtain ⟨history, hs⟩ := (hsound m).exists_of_mem hs
    exact hs.sits
  exact
    { isWriter_iff := fun m s hs => (hsits m s hs).mayProlong_iff.symm
      stop_eq_head := fun _ _ _ hmay => Span.stop_eq_head hmay
      writesTo_iff := fun m => Lineage.writesTo_iff (hsound m)
      once := fun _ _ _ _ hm hn => hm.position_eq hn
      lost := fun m _ _ _ h hn s hs ht => h.mayProlong_eq_false hn (hsits m s hs) ht
      kept := fun _ _ _ hmn hname he => Lineage.extends_stage hmn hname he }

/-- Two snapshots with the same range, one made of the other by a merge, and a change added to each. -/
def rivals : List Addition :=
  [(0, ⟨1, 1⟩), (1, ⟨2, 1⟩), (2, ⟨3, 1⟩), (3, ⟨4, 4⟩), (2, ⟨5, 5⟩), (4, ⟨6, 6⟩)]

/-- At capacity three both may write when one sample has been written.  The later one does, as the
only addition of all, and the earlier one may not any more; its own change goes to a fork. -/
theorem writes_in_place_exclusive_rivals :
    (1 ≤ 3 ∧ Snapshot.Addressable 3) ∧
      ∃ l s, Lineage.start (Series.ofName "load") "server" 3 = .ok l ∧
        (l.stage rivals 3).snapshots[2]? = some s ∧
        s.span.mayProlong (l.stage rivals 3).pool = true ∧
        s.span.start + s.span.length = ((l.stage rivals 3).pool.tape 0).head ∧
        l.WritesAt rivals 3 0 1 ∧ (∀ n, l.WritesAt rivals n 0 1 → n = 3) ∧
        s.span.mayProlong (l.stage rivals 4).pool = false ∧
        ¬ (l.stage rivals 4).WritesTo 0 (2, ⟨5, 5⟩) ∧
        ((l.stage rivals 6).pool.tape 0).Extends ((l.stage rivals 3).pool.tape 0) := by
  refine ⟨⟨by decide, by decide⟩, ?_⟩
  obtain ⟨l, hl, h⟩ :=
    @writes_in_place_exclusive (Series.ofName "load") "server" 3 (by decide) (by decide)
  rw [Lineage.start_eq_ok _ _ (by decide) (by decide)] at hl
  cases hl
  obtain ⟨s, hs⟩ : ∃ s, ((Lineage.root (Series.ofName "load") "server" 3).stage rivals
    3).snapshots[2]? = some s := ⟨_, rfl⟩
  have hmem := Array.mem_of_getElem? hs
  have hwrites : (Lineage.root (Series.ofName "load") "server" 3).WritesAt rivals 3 0 1 :=
    ⟨_, rfl, ⟨by decide, ⟨3, 1⟩, by decide⟩, by decide⟩
  have hzero : s.span.tape = 0 := by
    cases hs
    rfl
  have hright := ((h rivals).isWriter_iff 3 s hmem).mp (by cases hs; rfl)
  have hstop := (h rivals).stop_eq_head 3 s hmem hright
  have hlost := (h rivals).lost 3 4 0 1 hwrites (by decide) s hmem hzero
  rw [hzero] at hstop
  refine ⟨_, s, Lineage.start_eq_ok _ _ (by decide) (by decide), hs, hright, hstop, hwrites,
    fun n hn => (h rivals).once n 3 0 1 hn hwrites, hlost, ?_,
    (h rivals).kept 3 6 0 (by decide) (by decide) (by decide)⟩
  rw [(h rivals).writesTo_iff]
  rintro ⟨t, ht, -, hmay, -⟩
  obtain rfl : s = t := by
    cases hs
    cases ht
    rfl
  rw [hlost] at hmay
  cases hmay

end MetricStore
