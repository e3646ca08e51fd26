import MetricStore.Snapshot

/-!
Lineages: the tree of the snapshots of a dataset as it grows.

Snapshots are named by the order in which they were made.  An addition names the snapshot that a
sample is added to, any of those made so far, and makes the next one; `Lineage.grow` makes many
additions.  `histories` says what each snapshot was given on the way from the empty one, without
making any: after the same additions, snapshots and histories correspond by position
(`size_histories`).
-/

namespace MetricStore

/-- A tree of snapshots with the tapes they read. -/
structure Lineage where
  pool : Pool
  snapshots : Array Snapshot

/-- A sample, and the position of the snapshot it is added to. -/
abbrev Addition := Nat × Sample

namespace Lineage

def empty : Lineage := ⟨Pool.empty, #[]⟩

instance : Inhabited Lineage := ⟨empty⟩

/-- One more snapshot, made elsewhere on the same tapes. -/
def keep (l : Lineage) (s : Snapshot) : Lineage := { l with snapshots := l.snapshots.push s }

/-- The tree with the empty snapshot of a dataset alone. -/
def start (series : Series) (host : String) (capacity : Nat) : Except Failure Lineage := do
  let (p, s) ← Snapshot.fresh Pool.empty series host capacity
  return ⟨p, #[s]⟩

/-- Adds a sample to any snapshot made so far; where there is none, nothing happens. -/
def add (l : Lineage) (i : Nat) (x : Sample) : Lineage :=
  match l.snapshots[i]? with
  | none => l
  | some s =>
    let (p, s) := s.add l.pool x
    ⟨p, l.snapshots.push s⟩

/-- Makes additions one after the other. -/
def grow (l : Lineage) (additions : List Addition) : Lineage :=
  additions.foldl (fun l (i, x) => l.add i x) l

theorem grow_append (l : Lineage) (earlier later : List Addition) :
    l.grow (earlier ++ later) = (l.grow earlier).grow later := by
  simp [grow]

theorem size_add (l : Lineage) (i : Nat) (x : Sample) :
    (l.add i x).snapshots.size =
      if i < l.snapshots.size then l.snapshots.size + 1 else l.snapshots.size := by
  unfold add
  split
  · next h => rw [if_neg (by simpa using h)]
  · next h => rw [if_pos (Array.getElem?_eq_some_iff.mp h).1, Array.size_push]

/-- An addition leaves every snapshot in its place. -/
theorem getElem?_add (l : Lineage) (i : Nat) (x : Sample) {j : Nat} (h : j < l.snapshots.size) :
    (l.add i x).snapshots[j]? = l.snapshots[j]? := by
  unfold add
  split
  · rfl
  · exact Array.getElem?_push_lt h |>.trans (Array.getElem?_eq_getElem h).symm

end Lineage

/-! ### Histories -/

/-- The history of one more snapshot: that of the one added to, and the sample. -/
def branch (known : Array (List Sample)) (a : Addition) : Array (List Sample) :=
  match known[a.1]? with
  | none => known
  | some history => known.push (history ++ [a.2])

/-- What every snapshot was given, from the empty one on. -/
def histories (additions : List Addition) : Array (List Sample) := additions.foldl branch #[[]]

/-- The additions of one snapshot after the other, each to the one before. -/
def inTurn (samples : List Sample) : List Addition := samples.mapIdx Prod.mk

theorem size_branch (known : Array (List Sample)) (a : Addition) :
    (branch known a).size = if a.1 < known.size then known.size + 1 else known.size := by
  unfold branch
  split
  · next h => rw [if_neg (by simpa using h)]
  · next h => rw [if_pos (Array.getElem?_eq_some_iff.mp h).1, Array.size_push]

/-- Snapshots and histories correspond by position. -/
theorem size_histories {l : Lineage} (h : l.snapshots.size = 1) (additions : List Addition) :
    (histories additions).size = (l.grow additions).snapshots.size := by
  suffices ∀ (known : Array (List Sample)) (l : Lineage), known.size = l.snapshots.size →
      (additions.foldl branch known).size = (l.grow additions).snapshots.size from
    this _ _ (by simp [h])
  clear h l
  induction additions with
  | nil => exact fun _ _ h => h
  | cons a rest ih =>
    intro known l h
    refine ih _ _ ?_
    rw [size_branch, Lineage.size_add, h]

end MetricStore
