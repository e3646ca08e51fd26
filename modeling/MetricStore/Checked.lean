import MetricStore.Snapshot

/-!
Additions with every bound checked.

A slice that goes beyond the slots is cut short, a difference below zero is zero, and a sample
written behind the last slot is lost; nothing tells of it.  Each function here does the work of the
one it is named after, but gives `none` where this would happen, and also where the first write to a
fork would have to make room.

Design notes: the checks are those of single operations.  That a range ends at the head, or is short
enough to survive a compaction, is not checked as such; it shows in the differences.
-/

namespace MetricStore

/-- The difference of two numbers, if it is not below zero. -/
def difference? (a b : Nat) : Option Nat := if b ≤ a then some (a - b) else none

namespace Tape

/-- A range of slots, all of which have to be there. -/
def slice? (t : Tape) (start length : Nat) : Option (List Sample) :=
  if start + length ≤ t.slots.size then some (t.slice start length) else none

/-- A fork with a copy of a range of slots, all of which have to be there. -/
def fork? (t : Tape) (start length : Nat) : Option Tape := do
  let _ ← t.slice? start length
  return t.fork start length

/-- A compaction; the latest half of what was written has to be there. -/
def compact? (t : Tape) : Option Tape := do
  let start ← difference? t.head t.keep
  let _ ← t.slice? start t.keep
  return t.compact

/-- A write at the head, where there has to be a slot. -/
def write? (t : Tape) (x : Sample) : Option Tape :=
  if t.head < t.slots.size then some (t.write x) else none

def push? (t : Tape) (x : Sample) : Option Tape := do
  let t ← if t.isFull then t.compact? else some t
  t.write? x

def relocate? (t : Tape) (start : Nat) : Option Nat :=
  if t.isFull then do
    let moved ← difference? t.head t.keep
    difference? start moved
  else some start

def append? (t : Tape) (start : Nat) (x : Sample) : Option (Tape × Nat) := do
  return (← t.push? x, ← t.relocate? start)

end Tape

namespace Span

def samples? (s : Span) (p : Pool) : Option (List Sample) := do
  return (← (p.tape s.tape).slice? s.start s.length) ++ s.latest.toList

def commit? (s : Span) (p : Pool) (start length : Nat) (x latest : Sample) :
    Option (Pool × Span) := do
  let t := p.tape s.tape
  if s.mayAppend t (start + length) then
    let (t, start) ← t.append? start x
    return (p.put s.tape t, ⟨s.tape, s.epoch, t.epoch, t.written, start, length + 1, some latest⟩)
  else
    let t ← t.fork? start length
    -- The first write to a fork finds a slot.
    if t.isFull then none
    else
      let (t, start) ← t.append? 0 x
      let (p, name) := p.add t
      return (p, ⟨name, t.epoch, t.epoch, t.written, start, length + 1, some latest⟩)

def push? (s : Span) (p : Pool) (capacity : Nat) (x : Sample) : Option (Pool × Span) :=
  match s.latest with
  | none => some (p, s.withLatest x)
  | some last =>
    if s.size < capacity then s.commit? p s.start s.length last x
    else if s.length = 0 then some (p, s.withLatest x)
    else do
      let length ← difference? s.length 1
      s.commit? p (s.start + 1) length last x

def collapse? (s : Span) (p : Pool) (first x : Sample) : Option (Pool × Span) :=
  if s.length = 1 ∧ s.latest.isSome ∧ s.sample? p 0 = some first then some (p, s.withLatest x)
  else s.commit? p (s.start + s.length) 0 first x

end Span

/-- The snapshot after one more sample, if no bound is exceeded on the way. -/
def Snapshot.add? (p : Pool) (s : Snapshot) (x : Sample) : Option (Pool × Snapshot) := do
  let changed := s.isChange x
  let run := s.run.observe x.time changed
  let (p, span) ←
    match Retention.action s.capacity run changed with
    | .push => s.span.push? p s.capacity x
    | .merge => some (s.span.merge p x)
    | .collapse => s.span.collapse? p ⟨run.since, x.value⟩ x
  return (p, { s with span := span, run := run, summary := s.summary.observe x.value changed })

end MetricStore
