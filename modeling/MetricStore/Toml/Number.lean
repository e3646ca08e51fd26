import MetricStore.Text.Numeral
import MetricStore.Toml.Blank
import MetricStore.Toml.Value

/-!
Numbers of a TOML document.

Integers are written in decimal notation with an optional sign, or in base 16, 8 or 2 without
one, and fit 64 bits.  Reals have a fraction, an exponent or both, or are infinite or no number;
a decimal too large to be finite is refused.  An underscore may stand between two digits.
-/

namespace MetricStore.Toml

open Scan

/-- Digits of a class, with single underscores between them. -/
def digitRun (p : Char → Bool) : Scan (List Char) := do
  let first ← satisfy p
  let others ← many do
    match ← peek with
    | some '_' =>
      char '_'
      some <$> satisfy p
    | _ => optional (satisfy p)
  return first :: others

/-- A sign, if there is one: whether it is a minus. -/
def sign : Scan Bool := do
  match ← peek with
  | some '+' =>
    char '+'
    return false
  | some '-' =>
    char '-'
    return true
  | _ => return false

/-- The digits of a decimal integer: a zero stands alone. -/
def decimalDigits : Scan (List Char) := do
  match ← peek with
  | some '0' =>
    char '0'
    return ['0']
  | _ => digitRun Char.isDigit

/-- An integer within 64 bits. -/
def fitting (n : Int) : Scan Value :=
  if Text.Fits64 n then return .integer n else failure

/-- An integer in a base other than ten, behind a zero and a letter. -/
def based (letter : Char) (base : Nat) (p : Char → Bool) : Scan Value := do
  literal ['0', letter]
  let digits ← digitRun p
  fitting (Text.ofDigits base digits)

/-- An integer in any notation. -/
def integer : Scan Value :=
  based 'x' 16 Text.isHexDigit
    <|> based 'o' 8 (fun c => '0' ≤ c && c ≤ '7')
    <|> based 'b' 2 (fun c => c == '0' || c == '1')
    <|> do
      let negative ← sign
      let digits ← decimalDigits
      let n := Text.ofDigits 10 digits
      fitting (if negative then -n else n)

/-- The power of ten behind a letter e. -/
def power : Scan Int := do
  let _ ← satisfy fun c => c == 'e' || c == 'E'
  let negative ← sign
  let digits ← digitRun Char.isDigit
  let n := Text.ofDigits 10 digits
  return if negative then -n else n

/-- A real in decimal notation. -/
def decimalReal : Scan Value := do
  let negative ← sign
  let whole ← decimalDigits
  let fraction ← optional do
    char '.'
    digitRun Char.isDigit
  -- Without a fraction, only an exponent makes it a real.
  let exponent ← if fraction.isSome then optional power else some <$> power
  let places := fraction.getD []
  let number : Text.Decimal :=
    ⟨negative, Text.ofDigits 10 (whole ++ places), exponent.getD 0 - places.length⟩
  let x := number.toFloat
  if x == 1 / 0 then failure else return .real x

/-- A real that is infinite or no number. -/
def specialReal : Scan Value := do
  let negative ← sign
  let x ← (do literal ['i', 'n', 'f']; return (1 : Float) / 0) <|>
    (do literal ['n', 'a', 'n']; return (0 : Float) / 0)
  return .real (if negative then -x else x)

end MetricStore.Toml
