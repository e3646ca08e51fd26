import MetricStore.Text.Numeral
import MetricStore.Text.Quoted

/-!
Scalars: the values of single settings, and the natural numbers they stand for.

A variable of the environment is read as a truth value, an integer, a real or a text, whichever
fits first (`Scalar.ofVariable`).  A number below 2⁶⁴ can be given in many ways (`Scalar.toNat`):
by an integer that is not negative, by a real rounded to the nearest integer and brought into
range, by a truth value, or by a text that says one of these.
-/

namespace MetricStore.Settings

/-- The value of a setting that is no list and no table. -/
inductive Scalar where
  | boolean (truth : Bool)
  | integer (number : Int)
  | real (number : Float)
  | text (content : String)

/-- Why a setting is no natural number. -/
inductive Unfit where
  | negative (number : Int)
  | text (content : String)
  | list
  | table
deriving DecidableEq

/-- What was found instead of a natural number. -/
def Unfit.found : Unfit → String
  | negative number => s!"64-bit integer `{number}`"
  | text content => "string " ++ Text.quote content
  | list => "sequence"
  | table => "map"

/-- What was wanted. -/
def Unfit.wanted : Unfit → String
  | negative _ => "an unsigned 64 bit or less integer"
  | _ => "an integer"

namespace Scalar

/-! ### Numbers in a text -/

/-- A natural number in decimal digits. -/
def natural? (cs : List Char) : Option Nat :=
  if !cs.isEmpty && cs.all Char.isDigit then some (Text.ofDigits 10 cs) else none

/-- A number below 2⁶⁴, with a plus in front if wanted. -/
def unsigned? (cs : List Char) : Option Nat :=
  let digits := match cs with
    | '+' :: digits => digits
    | digits => digits
  (natural? digits).filter (· < UInt64.size)

/-- An integer of 64 bits, with a sign in front if wanted. -/
def integer? (cs : List Char) : Option Int :=
  let n : Option Int := match cs with
    | '+' :: digits => (natural? digits).map Int.ofNat
    | '-' :: digits => (natural? digits).map fun n => -Int.ofNat n
    | digits => (natural? digits).map Int.ofNat
  n.filter fun n => Text.Fits64 n

/-- A power of ten: nothing, or a letter e, a sign if wanted, and digits. -/
def power? : List Char → Option Int
  | [] => some 0
  | c :: cs =>
    if c = 'e' ∨ c = 'E' then
      match cs with
      | '+' :: digits => (natural? digits).map Int.ofNat
      | '-' :: digits => (natural? digits).map fun n => -Int.ofNat n
      | digits => (natural? digits).map Int.ofNat
    else none

/-- A real without a sign: infinite, no number, or digits with a point anywhere among them and a
power of ten behind them. -/
def magnitude? (negative : Bool) (cs : List Char) : Option Float :=
  let word := cs.map Char.toLower
  if word = "inf".toList ∨ word = "infinity".toList then
    some (if negative then -1 / 0 else 1 / 0)
  else if word = "nan".toList then some (0 / 0)
  else do
    let whole := cs.takeWhile Char.isDigit
    let rest := cs.dropWhile Char.isDigit
    let (places, rest) := match rest with
      | '.' :: rest => (rest.takeWhile Char.isDigit, rest.dropWhile Char.isDigit)
      | rest => ([], rest)
    let power ← power? rest
    if whole.isEmpty && places.isEmpty then none
    else
      let number : Text.Decimal :=
        ⟨negative, Text.ofDigits 10 (whole ++ places), power - places.length⟩
      some number.toFloat

/-- A real, with a sign in front if wanted. -/
def real? : List Char → Option Float
  | '+' :: cs => magnitude? false cs
  | '-' :: cs => magnitude? true cs
  | cs => magnitude? false cs

/-! ### The value of a variable -/

/-- What a text says: the first of truth value, integer, real and text that fits. -/
def ofVariable (content : String) : Scalar :=
  let cs := content.toList
  if content.toLower = "true" then .boolean true
  else if content.toLower = "false" then .boolean false
  else
    match integer? cs, real? cs with
    | some n, _ => .integer n
    | none, some x => .real x
    | none, none => .text content

/-! ### Natural numbers -/

/-- The natural number that a scalar stands for.  Of two integers equally near to a real, it is
the one further from zero; a real that is no number is zero. -/
def toNat : Scalar → Except Unfit Nat
  | boolean truth => .ok truth.toNat
  | integer number => if 0 ≤ number then .ok number.toNat else .error (.negative number)
  | real number => .ok number.round.toUInt64.toNat
  | text content =>
    if content.toLower ∈ ["true", "on", "yes"] then .ok 1
    else if content.toLower ∈ ["false", "off", "no"] then .ok 0
    else
      match unsigned? content.toList with
      | some n => .ok n
      | none => .error (.text content)

end Scalar

end MetricStore.Settings
