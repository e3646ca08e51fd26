import MetricStore.Tape

/-!
Spans: the samples one snapshot keeps, most of them on a tape that other snapshots read too.

The latest sample of a span is held in the span itself; the older ones are a range of slots on
one tape of a `Pool`.  Replacing the latest sample therefore touches no slot.  Adding one more
commits the latest sample to the tape (`Span.commit`): in place if this span made the last write
to its tape, and on a fork of its own otherwise, so that nobody's samples are overwritten.

Design notes: tapes are named by their position in the pool and never removed, so a span stays
readable for ever.  What it reads is its own as long as its tape has not been compacted since;
`Span.isOutdated` says when it may no longer be.
-/

namespace MetricStore

/-- All tapes, named by position. -/
structure Pool where
  tapes : Array Tape

namespace Pool

def empty : Pool := ⟨#[]⟩

instance : Inhabited Pool := ⟨empty⟩

/-- The tape with this name. -/
def tape (p : Pool) (name : Nat) : Tape := p.tapes.getD name default

/-- Replaces a tape. -/
def put (p : Pool) (name : Nat) (t : Tape) : Pool := ⟨p.tapes.setIfInBounds name t⟩

/-- Adds a tape under a new name. -/
def add (p : Pool) (t : Tape) : Pool × Nat := (⟨p.tapes.push t⟩, p.tapes.size)

theorem tape_put_self (p : Pool) {name : Nat} (h : name < p.tapes.size) (t : Tape) :
    (p.put name t).tape name = t := by
  simp [tape, put, h]

theorem tape_put_other (p : Pool) {name other : Nat} (h : name ≠ other) (t : Tape) :
    (p.put name t).tape other = p.tape other := by
  simp [tape, put, h]

theorem tape_add_self (p : Pool) (t : Tape) : (p.add t).1.tape (p.add t).2 = t := by
  simp [tape, add]

theorem tape_add_other (p : Pool) {name : Nat} (h : name < p.tapes.size) (t : Tape) :
    (p.add t).1.tape name = p.tape name := by
  simp [tape, add, Array.getElem?_push, Nat.ne_of_lt h]

end Pool

/-- A range of slots on a tape with the latest sample behind it. -/
structure Span where
  /-- The name of its tape. -/
  tape : Nat
  /-- The epoch of the tape before this span was made. -/
  seen : Nat
  /-- The epoch that `start` refers to. -/
  epoch : Nat
  /-- How much had been written to the tape when this span was made. -/
  written : Nat
  /-- The first slot of the range. -/
  start : Nat
  /-- The number of slots in the range. -/
  length : Nat
  /-- The latest sample, which is on no tape yet. -/
  latest : Option Sample
deriving DecidableEq

namespace Span

/-- The empty span on a new tape with room for `capacity` samples: twice that many slots, so
that a compaction pays for as many writes, less one for the latest sample. -/
def fresh (p : Pool) (capacity : Nat) : Pool × Span :=
  let (p, name) := p.add (Tape.blank (2 * capacity - 1))
  (p, ⟨name, 0, 0, 0, 0, 0, none⟩)

/-- The number of samples. -/
def size (s : Span) : Nat := s.length + if s.latest.isSome then 1 else 0

/-- The samples, oldest first, as the tape holds them now. -/
def samples (s : Span) (p : Pool) : List Sample :=
  (p.tape s.tape).slice s.start s.length ++ s.latest.toList

/-- The sample at a position, oldest first. -/
def sample? (s : Span) (p : Pool) (i : Nat) : Option Sample :=
  if i < s.length then (p.tape s.tape).slot? (s.start + i)
  else if i = s.length then s.latest
  else none

/-- The slots have been moved since before this span was made, if only by its own making. -/
def isOutdated (s : Span) (p : Pool) : Bool := (p.tape s.tape).epoch != s.seen

/-- The slots have been moved since this span was made, so its range may hold other samples. -/
def isRecycled (s : Span) (p : Pool) : Bool := (p.tape s.tape).epoch != s.epoch

/-- The making of this span moved the slots. -/
def hasCompacted (s : Span) : Bool := s.epoch != s.seen

/-! ### Spans from spans -/

/-- The same range with another latest sample. -/
def withLatest (s : Span) (x : Sample) : Span := { s with seen := s.epoch, latest := some x }

/-- A range of this span that ends at `stop` may be prolonged where it is: nothing was written
or moved since the span was made, and the head stands right behind the range. -/
def mayAppend (s : Span) (t : Tape) (stop : Nat) : Bool :=
  t.epoch == s.epoch && t.written == s.written && t.head == stop

/-- Writes `x` behind a part of this span's range and makes `latest` the latest sample: in place
if it may, else on a fork. -/
def commit (s : Span) (p : Pool) (start length : Nat) (x latest : Sample) : Pool × Span :=
  let t := p.tape s.tape
  if s.mayAppend t (start + length) then
    -- Nobody reads the slot at the head, and a compaction shows in the epoch.
    let (t, start) := t.append start x
    (p.put s.tape t, ⟨s.tape, s.epoch, t.epoch, t.written, start, length + 1, some latest⟩)
  else
    -- Somebody else wrote behind the range, or part of it was given up.
    let (t, start) := (t.fork start length).append 0 x
    let (p, name) := p.add t
    (p, ⟨name, t.epoch, t.epoch, t.written, start, length + 1, some latest⟩)

/-- One more sample; the oldest goes if `capacity` of them are kept already. -/
def push (s : Span) (p : Pool) (capacity : Nat) (x : Sample) : Pool × Span :=
  match s.latest with
  | none => (p, s.withLatest x)
  | some last =>
    if s.size < capacity then s.commit p s.start s.length last x
    -- With a capacity of one, the latest sample is the oldest too.
    else if s.length = 0 then (p, s.withLatest x)
    else s.commit p (s.start + 1) (s.length - 1) last x

/-- The sample takes the place of the latest one. -/
def merge (s : Span) (p : Pool) (x : Sample) : Pool × Span := (p, s.withLatest x)

/-- Only the first sample of a run and its latest are kept; if they are kept already, the tape
is left alone. -/
def collapse (s : Span) (p : Pool) (first x : Sample) : Pool × Span :=
  if s.length = 1 ∧ s.latest.isSome ∧ s.sample? p 0 = some first then (p, s.withLatest x)
  else s.commit p (s.start + s.length) 0 first x

end Span

end MetricStore
