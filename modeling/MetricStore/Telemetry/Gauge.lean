/-!
The text of a gauge.

A gauge holds a number in 53 significant bits (`nearest`), and its text is the decimal number
with the fewest significant digits that is nearer to what it holds than to anything else it could
hold (`shortest`).  Below 2⁵³ both change nothing.

Design notes: the candidates for a number of trailing zeros are the two multiples of a power of
ten around the number; powers are tried from the highest down, and the last one, 1, always fits.
-/

namespace MetricStore.Telemetry.Gauge

/-- What the last of 53 significant bits of a number counts. -/
def lastBit (n : Nat) : Nat := 1 <<< (n.log2 - 52)

/-- The number of 53 significant bits nearest to `n`; of two, the one with an even last bit. -/
def nearest (n : Nat) : Nat :=
  let unit := lastBit n
  let low := n / unit
  let up := 2 * (n % unit) > unit || (2 * (n % unit) == unit && low % 2 == 1)
  (if up then low + 1 else low) * unit

/-- Every real number from `n` on up to half a unit is nearest to `n`; below `n` the units are
half as long if `n` is a power of two.  Bounds count if the last bit is even. -/
def roundsTo (n candidate : Nat) : Bool :=
  let unit := lastBit n
  let below := if n == 1 <<< n.log2 then unit / 2 else unit
  let even := n / unit % 2 == 0
  if candidate < n then
    2 * (n - candidate) < below || (even && 2 * (n - candidate) == below)
  else
    2 * (candidate - n) < unit || (even && 2 * (candidate - n) == unit)

/-- The multiple of a power of ten that rounds to `n`; of two, the nearer one. -/
def candidate? (n power : Nat) : Option Nat :=
  let low := n / power * power
  let high := low + power
  let byDistance := if n - low ≤ high - n then [low, high] else [high, low]
  byDistance.find? (roundsTo n)

/-- The candidate with the most trailing zeros, at most `zeros` of them. -/
def shortestFrom (n : Nat) : Nat → Nat
  | 0 => n
  | zeros + 1 => (candidate? n (Nat.pow 10 (zeros + 1))).getD (shortestFrom n zeros)

/-- The number with the fewest significant digits that rounds to `n`. -/
def shortest (n : Nat) : Nat :=
  if n < 1 <<< 53 then n else shortestFrom n n.log2

/-- The text of a gauge that was set to `n`. -/
def text (n : Nat) : String := toString (shortest (nearest n))

end MetricStore.Telemetry.Gauge
