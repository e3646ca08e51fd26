import MetricStore.Rate
import MetricStore.Summary

/-!
Rates and statistics with every number checked.

A rate is computed in integers of any size, a sum is held at its bound when it would leave it, and a
count is any natural number; nothing tells whether numbers of a fixed size would have done.  Each
function here does the work of the one it is named after, but gives `none` where an integer on the way
has more than 128 bits or a count more than 64.
-/

namespace MetricStore

/-- The integer, if it has no more than 128 bits. -/
def Int128.ofInt? (n : Int) : Option Int128 :=
  if h : -0x80000000000000000000000000000000 ≤ n ∧ n < 0x80000000000000000000000000000000 then
    some ⟨n, h.1, h.2⟩
  else none

namespace Int128

theorem toInt_clamp_of_natAbs_lt {n : Int} (h : n.natAbs < 0x80000000000000000000000000000000) :
    (clamp n).toInt = n := toInt_clamp (by omega) (by omega)

/-- A small integer is taken as it is. -/
theorem ofInt?_eq_some {n : Int} (h : n.natAbs < 0x80000000000000000000000000000000) :
    ofInt? n = some (clamp n) := by
  have hroom : -0x80000000000000000000000000000000 ≤ n ∧ n < 0x80000000000000000000000000000000 := by
    omega
  rw [ofInt?, dif_pos hroom, Option.some.injEq, ← clamp_toInt ⟨n, hroom.1, hroom.2⟩]

end Int128

/-- The count, if it has no more than 64 bits. -/
def count? (n : Nat) : Option Nat := if n < UInt64.size then some n else none

theorem count?_eq_some {n : Nat} (h : n < UInt64.size) : count? n = some n := if_pos h

/-- The change per second from one sample to another, if all integers on the way are small enough. -/
def Rate.between? (a b : Sample) : Option Int64 := do
  let elapsed ← Int128.ofInt? (b.time.toInt - a.time.toInt)
  if elapsed.toInt = 0 then return 0
  let change ← Int128.ofInt? (b.value.toInt - a.value.toInt)
  let scaled ← Int128.ofInt? (change.toInt * 1000)
  let rate ← Int128.ofInt? (scaled.toInt.tdiv elapsed.toInt)
  return Int64.ofIntClamp rate.toInt

/-- The statistics after one more value, if no count and no sum exceeds its bound. -/
def Summary.observed? (s : Summary) (value : Int64) (changed : Bool) : Option Summary := do
  let changes ← count? (if changed then s.changes + 1 else s.changes)
  let count ← count? (s.count + 1)
  let sum ← Int128.ofInt? (s.sum.toInt + value.toInt)
  return ⟨count, changes, Min.min s.min value, Max.max s.max value, sum⟩

theorem Summary.observed?_eq_some {s : Summary} {value : Int64} {changed : Bool}
    (hcount : s.count + 1 < UInt64.size) (hchanges : s.changes ≤ s.count)
    (hsum : (s.sum.toInt + value.toInt).natAbs < 0x80000000000000000000000000000000) :
    s.observed? value changed = some (s.observe value changed) := by
  have hchanged : (if changed then s.changes + 1 else s.changes) < UInt64.size := by
    split <;> omega
  rw [observed?, count?_eq_some hchanged, count?_eq_some hcount, Int128.ofInt?_eq_some hsum]
  rfl

/-- The run after one more sample, if its count does not exceed its bound. -/
def Run.observed? (r : Run) (time : Int64) (changed : Bool) : Option Run := do
  let count ← count? (if changed then 1 else r.count + 1)
  return ⟨if changed then time else r.since, count⟩

theorem Run.observed?_eq_some {r : Run} {time : Int64} {changed : Bool}
    (hcount : r.count + 1 < UInt64.size) :
    r.observed? time changed = some (r.observe time changed) := by
  cases changed with
  | false =>
    rw [observed?, if_neg Bool.false_ne_true, count?_eq_some hcount]
    rfl
  | true => rfl

end MetricStore
