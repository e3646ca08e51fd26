import MetricStore.Sample

/-!
Tapes: the reusable slots that successive snapshots of one dataset share.

A tape has a fixed number of slots and a head.  `push` writes one sample at the head; if the head
stands behind the last slot, it first moves the latest half of the slots to the front (`compact`),
which begins a new epoch: from then on the positions noted in earlier epochs hold other samples.
`fork` begins a tape of its own with a copy of some slots.

Design notes: slots are never cleared, so a position noted in an earlier epoch still reads what
was written there since.  Whoever keeps a range that ends at the head uses `append`, which also
says where that range starts afterwards.
-/

namespace MetricStore

/-- A row of slots with a write head. -/
structure Tape where
  slots : Array Sample
  /-- The next slot to be written. -/
  head : Nat
  /-- How often the slots have been moved: at most once for each write. -/
  epoch : Nat
  /-- How many samples have been written: at most one for each addition to a snapshot.  At one
  addition a nanosecond, 64 bits hold this number, and with it the epoch, for 584 years. -/
  written : Nat
deriving DecidableEq

namespace Tape

/-- A tape with nothing written; it has at least one slot. -/
def blank (size : Nat) : Tape := ⟨Array.replicate (max size 1) Sample.blank, 0, 0, 0⟩

instance : Inhabited Tape := ⟨blank 1⟩

/-- The content of a slot, if there is such a slot. -/
def slot? (t : Tape) (i : Nat) : Option Sample := t.slots[i]?

/-- The contents of the slots from `start` on, `length` of them or as many as there are. -/
def slice (t : Tape) (start length : Nat) : List Sample :=
  (t.slots.extract start (start + length)).toList

/-- A tape of the same size that holds a copy of a slice at its front and nothing else. -/
def fork (t : Tape) (start length : Nat) : Tape :=
  let copied := t.slots.extract start (start + length)
  { slots := copied ++ Array.replicate (t.slots.size - copied.size) Sample.blank
    head := copied.size
    epoch := 0
    written := 0 }

/-- How many slots a compaction keeps: half of them, rounded down. -/
def keep (t : Tape) : Nat := t.slots.size / 2

/-- Moves the latest half of what was written to the front and begins a new epoch. -/
def compact (t : Tape) : Tape :=
  { t with
    slots := t.slots.extract (t.head - t.keep) t.head ++ t.slots.extract t.keep t.slots.size
    head := t.keep
    epoch := t.epoch + 1 }

/-- Writes a sample at the head. -/
def write (t : Tape) (x : Sample) : Tape :=
  { t with slots := t.slots.setIfInBounds t.head x, head := t.head + 1, written := t.written + 1 }

/-- The head stands behind the last slot. -/
def isFull (t : Tape) : Bool := t.slots.size ≤ t.head

/-- Writes a sample at the head, and makes room first if there is none. -/
def push (t : Tape) (x : Sample) : Tape := (if t.isFull then t.compact else t).write x

/-- Where a range that ends at the head will start after one more `push`: a compaction moves it to
the front with the slots. -/
def relocate (t : Tape) (start : Nat) : Nat :=
  if t.isFull then start - (t.head - t.keep) else start

/-- Writes a sample behind the range that starts at `start` and ends at the head, and says where
that range starts now. -/
def append (t : Tape) (start : Nat) (x : Sample) : Tape × Nat := (t.push x, t.relocate start)

/-- Writes samples one after the other. -/
def pushAll (t : Tape) (xs : List Sample) : Tape := xs.foldl push t

/-! ### What a push changes -/

theorem written_push (t : Tape) (x : Sample) : (t.push x).written = t.written + 1 := by
  unfold push
  split <;> rfl

theorem epoch_push (t : Tape) (x : Sample) :
    (t.push x).epoch = if t.isFull then t.epoch + 1 else t.epoch := by
  unfold push
  split <;> rfl

theorem pushAll_concat (t : Tape) (xs : List Sample) (x : Sample) :
    t.pushAll (xs ++ [x]) = (t.pushAll xs).push x := by
  simp [pushAll]

end Tape

end MetricStore
