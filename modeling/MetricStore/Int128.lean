/-!
Integers of 128 bits whose addition saturates.

An `Int128` is an integer with the proof that it is in range; `clamp` brings any integer to the
nearest one.  Sums of 64-bit values are kept in this type: it takes 2⁶³ summands to leave it, and
then the sum stays at the bound instead of wrapping.
-/

namespace MetricStore

/-- An integer from -2¹²⁷ to 2¹²⁷ - 1. -/
structure Int128 where
  toInt : Int
  least_le : -0x80000000000000000000000000000000 ≤ toInt
  lt_bound : toInt < 0x80000000000000000000000000000000
deriving DecidableEq

namespace Int128

/-- The integer of 128 bits nearest to `n`. -/
def clamp (n : Int) : Int128 :=
  ⟨max (-0x80000000000000000000000000000000) (min n (0x80000000000000000000000000000000 - 1)), by omega, by omega⟩

instance : Inhabited Int128 := ⟨clamp 0⟩

/-- Clamping changes no integer that is in range. -/
theorem toInt_clamp {n : Int} (h₁ : -0x80000000000000000000000000000000 ≤ n)
    (h₂ : n < 0x80000000000000000000000000000000) : (clamp n).toInt = n := by
  simp only [clamp]
  omega

@[simp] theorem clamp_toInt (n : Int128) : clamp n.toInt = n := by
  obtain ⟨n, h₁, h₂⟩ := n
  simp only [clamp, mk.injEq]
  omega

/-- The sum, held at the nearer bound if it leaves the range. -/
def satAdd (a : Int128) (b : Int) : Int128 := clamp (a.toInt + b)

/-- The quotient truncated towards zero. -/
def quot (a : Int128) (b : Int) : Int128 := clamp (a.toInt.tdiv b)

end Int128

end MetricStore
