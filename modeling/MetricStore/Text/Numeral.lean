/-!
Numerals: digits, the numbers they write, and decimal fractions as floating-point numbers.

A `Decimal` is a sign, a natural number and a power of ten; `Decimal.toFloat` is the
floating-point number nearest to it.

Design notes: powers of ten far outside the range of floating-point numbers are settled before
anything is computed, so no exponent is too large to read.
-/

namespace MetricStore.Text

/-- The value of a hexadecimal digit. -/
def digitValue (c : Char) : Nat :=
  if c.isDigit then c.toNat - '0'.toNat
  else if 'a' ≤ c ∧ c ≤ 'f' then c.toNat - 'a'.toNat + 10
  else c.toNat - 'A'.toNat + 10

/-- The characters 0 to 9, a to f and A to F. -/
def isHexDigit (c : Char) : Bool := c.isDigit || ('a' ≤ c && c ≤ 'f') || ('A' ≤ c && c ≤ 'F')

/-- The number written by digits of a base, the highest first. -/
def ofDigits (base : Nat) (digits : List Char) : Nat :=
  digits.foldl (fun n c => n * base + digitValue c) 0

/-- The integers of 64 bits, from -2⁶³ to 2⁶³ - 1. -/
def Fits64 (n : Int) : Prop := -0x8000000000000000 ≤ n ∧ n < 0x8000000000000000

instance (n : Int) : Decidable (Fits64 n) := inferInstanceAs (Decidable (_ ∧ _))

/-- A number in decimal notation. -/
structure Decimal where
  negative : Bool
  /-- All digits as one natural number. -/
  digits : Nat
  /-- The power of ten that the last digit counts. -/
  exponent : Int
deriving DecidableEq

namespace Decimal

/-- The number of decimal digits of a natural number. -/
def width (n : Nat) : Nat := (Nat.toDigits 10 n).length

/-- The size of the nearest floating-point number: beyond the power 400 it is infinite, and
before the power -400 it is zero. -/
def magnitude (d : Decimal) : Float :=
  let top := d.exponent + width d.digits
  if d.digits = 0 ∨ top < -400 then 0
  else if 400 < top then 1 / 0
  else Float.ofScientific d.digits (d.exponent < 0) d.exponent.natAbs

/-- The nearest floating-point number. -/
def toFloat (d : Decimal) : Float := if d.negative then -d.magnitude else d.magnitude

end Decimal

end MetricStore.Text
