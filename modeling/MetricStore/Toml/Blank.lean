import MetricStore.Toml.Scan

/-!
What stands between the parts of a TOML document: blanks, comments and ends of lines.

A line ends with a line feed, or a carriage return and a line feed.  A comment runs to the end of
its line and holds no control characters but tabs.
-/

namespace MetricStore.Toml

open Scan

/-- Space and tab. -/
def isBlank (c : Char) : Bool := c == ' ' || c == '\t'

/-- The characters that may stand in a text as they are: tab, and all but the ASCII controls. -/
def isPlain (c : Char) : Bool := c == '\t' || (' ' ≤ c && c != '\x7f')

/-- Any blanks. -/
def blanks : Scan Unit := do
  let _ ← takeWhile isBlank

/-- The end of a line, with another line behind it. -/
def lineBreak : Scan Unit := char '\n' <|> literal ['\r', '\n']

/-- A comment, without the end of its line. -/
def comment : Scan Unit := do
  char '#'
  let _ ← takeWhile isPlain

/-- Whatever may stand behind the last part of a line, and its end. -/
def lineEnd : Scan Unit := do
  blanks
  let _ ← optional comment
  lineBreak <|> atEnd

/-- Any blanks, comments and ends of lines. -/
def filler : Scan Unit := do
  let _ ← many do
    blanks
    match ← peek with
    | some '#' =>
      comment
      lineBreak
      return some ()
    | some '\n' | some '\r' =>
      lineBreak
      return some ()
    | _ => return none
  blanks

end MetricStore.Toml
