/-!
Scanning: reading characters from the front of a text.

A `Scan` either takes some characters and gives a value, or refuses.  Alternatives start over
from where they began.  A scan that is repeated must take a character each time, so repetition
ends with the text (`Scan.many`).
-/

namespace MetricStore.Toml

/-- Reads a value from the front of a text and leaves the rest, or refuses. -/
abbrev Scan (α : Type) := StateT (List Char) Option α

namespace Scan

/-- The next character, which stays where it is. -/
def peek : Scan (Option Char) := fun cs => some (cs.head?, cs)

/-- Takes the next character if it is one of a class. -/
def satisfy (p : Char → Bool) : Scan Char
  | [] => none
  | c :: cs => if p c then some (c, cs) else none

/-- Takes one certain character. -/
def char (c : Char) : Scan Unit := do
  let _ ← satisfy (· == c)

/-- Takes certain characters in a row. -/
def literal : List Char → Scan Unit
  | [] => return ()
  | c :: cs => do
    char c
    literal cs

/-- Takes characters of a class as long as there are any. -/
def takeWhile (p : Char → Bool) : Scan (List Char) := fun cs =>
  some (cs.takeWhile p, cs.dropWhile p)

/-- Takes one or more characters of a class. -/
def takeWhile1 (p : Char → Bool) : Scan (List Char) := do
  let c ← satisfy p
  let cs ← takeWhile p
  return c :: cs

/-- Takes exactly so many characters of a class. -/
def exactly (p : Char → Bool) : Nat → Scan (List Char)
  | 0 => return []
  | n + 1 => do
    let c ← satisfy p
    let cs ← exactly p n
    return c :: cs

/-- The text is at its end. -/
def atEnd : Scan Unit
  | [] => some ((), [])
  | _ :: _ => none

/-- Repeats a step until it gives nothing, at most so many times. -/
def upTo {α : Type} (step : Scan (Option α)) : Nat → Scan (List α)
  | 0 => failure
  | n + 1 => do
    match ← step with
    | none => return []
    | some x =>
      let xs ← upTo step n
      return x :: xs

/-- Repeats a step until it gives nothing; a step that gives a value takes a character. -/
def many {α : Type} (step : Scan (Option α)) : Scan (List α) := fun cs =>
  upTo step (cs.length + 1) cs

/-- One or more values with a separator between them. -/
def separated {α : Type} (item : Scan α) (separator : Scan Unit) : Scan (List α) := do
  let x ← item
  let xs ← many <| optional do
    separator
    item
  return x :: xs

end Scan

end MetricStore.Toml
