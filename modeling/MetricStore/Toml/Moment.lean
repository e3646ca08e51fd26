import MetricStore.Text.Numeral
import MetricStore.Toml.Blank
import MetricStore.Toml.Value

/-!
Dates and times of a TOML document.

A moment is a date, a time, or a date and a time with an optional offset from universal time.
Its normal form writes every number in its full width, a `T` between date and time, a `Z` for
universal time, and a fraction of a second without trailing zeros, if at all.

A moment can also be written as a table whose first entry has a certain key and the moment as its
text.  `Value.withMoments` finds these tables once a document is read.

Design notes: a fraction keeps nine places and drops the rest.  Days are checked against the
length of the month, hours go to 23, and a minute may have a second 60.  What stands behind the
first entry of a table that is a moment is not looked at.
-/

namespace MetricStore.Toml

open Scan

/-- A number in so many digits, within bounds. -/
def field (width least greatest : Nat) : Scan Nat := do
  let digits ← exactly Char.isDigit width
  let n := Text.ofDigits 10 digits
  if least ≤ n ∧ n ≤ greatest then return n else failure

/-- The number in at least so many digits. -/
def padded (width n : Nat) : String :=
  let digits := Nat.toDigits 10 n
  String.ofList (List.replicate (width - digits.length) '0' ++ digits)

/-- The number of days of a month. -/
def daysOf (year month : Nat) : Nat :=
  if month = 2 then
    if year % 4 = 0 ∧ (year % 100 ≠ 0 ∨ year % 400 = 0) then 29 else 28
  else if month ∈ [4, 6, 9, 11] then 30
  else 31

/-- A date, in normal form. -/
def date : Scan String := do
  let year ← field 4 0 9999
  char '-'
  let month ← field 2 1 12
  char '-'
  let day ← field 2 1 (daysOf year month)
  return padded 4 year ++ "-" ++ padded 2 month ++ "-" ++ padded 2 day

/-- A fraction of a second in normal form: a point and up to nine digits, or nothing. -/
def fraction : Scan String := do
  char '.'
  let digits ← takeWhile1 Char.isDigit
  let kept := ((digits.take 9).reverse.dropWhile (· == '0')).reverse
  return if kept.isEmpty then "" else String.ofList ('.' :: kept)

/-- A time of day, in normal form. -/
def time : Scan String := do
  let hour ← field 2 0 23
  char ':'
  let minute ← field 2 0 59
  char ':'
  let second ← field 2 0 60
  let rest ← optional fraction
  return padded 2 hour ++ ":" ++ padded 2 minute ++ ":" ++ padded 2 second ++ rest.getD ""

/-- An offset from universal time, in normal form; no offset has a plus. -/
def offset : Scan String :=
  (do
    let _ ← satisfy fun c => c == 'Z' || c == 'z'
    return "Z") <|>
  do
    let c ← satisfy fun c => c == '+' || c == '-'
    let hours ← field 2 0 23
    char ':'
    let minutes ← field 2 0 59
    let direction := if c == '-' && (0 < hours || 0 < minutes) then "-" else "+"
    return direction ++ padded 2 hours ++ ":" ++ padded 2 minutes

/-- The time behind a date, with its offset if it has one. -/
def timeOfDate : Scan String := do
  let _ ← satisfy fun c => c == 'T' || c == 't' || c == ' '
  let ofDay ← time
  let away ← optional offset
  return "T" ++ ofDay ++ away.getD ""

/-- A date with or without a time, or a time alone. -/
def dateOrTime : Scan Value :=
  (do
    let day ← date
    let ofDay ← optional timeOfDate
    return .moment (day ++ ofDay.getD "")) <|>
  Value.moment <$> time

/-! ### Tables that are moments -/

/-- A table whose first entry has this key is a moment in other words. -/
def momentKey : String := "$__toml_private_datetime"

/-- The moment that a text says, from its first character to its last. -/
def Value.toMoment? : Value → Option Value
  | .text content => do
    let (found, rest) ← dateOrTime.run content.toList
    if rest.isEmpty then return found else none
  | _ => none

mutual

/-- The value with a moment for every table in it that is one.  There is none if the text of such
a table says no moment. -/
def Value.withMoments : Value → Option Value
  | .list items => Value.list <$> itemsWithMoments items
  | .table ((key, v) :: rest) =>
    if key = momentKey then v.toMoment?
    else do return .table ((key, ← v.withMoments) :: (← entriesWithMoments rest))
  | v => some v

/-- The elements of a list with their moments. -/
def itemsWithMoments : List Value → Option (List Value)
  | [] => some []
  | v :: rest => do return (← v.withMoments) :: (← itemsWithMoments rest)

/-- The entries of a table with their moments. -/
def entriesWithMoments : List (String × Value) → Option (List (String × Value))
  | [] => some []
  | (key, v) :: rest => do return (key, ← v.withMoments) :: (← entriesWithMoments rest)

end

end MetricStore.Toml
