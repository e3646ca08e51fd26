import MetricStore.Text.Numeral
import MetricStore.Toml.Blank

/-!
Quoted texts of a TOML document.

Texts in double quotes have escapes, texts in single quotes stand as they are; either kind runs
over lines if its quotes are tripled.  Over lines, a line break right behind the opening quotes
is dropped, every other one is a line feed, and up to two quotes may stand next to the closing
ones.
-/

namespace MetricStore.Toml

open Scan

/-- The character of an escape of one letter. -/
def escapeValue : Char → Option Char
  | 'b' => some '\x08'
  | 't' => some '\t'
  | 'n' => some '\n'
  | 'f' => some '\x0c'
  | 'r' => some '\r'
  | '"' => some '"'
  | '\\' => some '\\'
  | _ => none

/-- A scalar value in so many hexadecimal digits. -/
def scalarValue (width : Nat) : Scan Char := do
  let digits ← exactly Text.isHexDigit width
  let n := Text.ofDigits 16 digits
  if n.isValidChar then return Char.ofNat n else failure

/-- What stands behind a backslash. -/
def escape : Scan Char := do
  let c ← satisfy fun _ => true
  match c with
  | 'u' => scalarValue 4
  | 'U' => scalarValue 8
  | c => (escapeValue c).elim failure pure

/-- The content of a text in double quotes and the closing quote. -/
def basicRest : Scan (List Char) :=
  many do
    let c ← satisfy fun _ => true
    match c with
    | '"' => return none
    | '\\' => some <$> escape
    | c => if isPlain c then return some c else failure

/-- The content of a text in single quotes and the closing quote. -/
def literalRest : Scan (List Char) := do
  let content ← takeWhile fun c => isPlain c && c != '\''
  char '\''
  return content

/-- A line break inside a text is a line feed. -/
def textBreak : Scan Char := do
  lineBreak
  return '\n'

/-- A backslash at the end of a line, with all blanks and line breaks that follow. -/
def joint : Scan Unit := do
  char '\\'
  blanks
  lineBreak
  let _ ← many <| optional <| (do let _ ← satisfy isBlank) <|> lineBreak

/-- One piece of a text in three double quotes that runs over lines. -/
def basicPiece : Scan (List Char) := do
  match ← peek with
  | some '\\' =>
    (do joint; return []) <|> do
      char '\\'
      let c ← escape
      return [c]
  | some '\n' | some '\r' => return [← textBreak]
  | _ => return [← satisfy isPlain]

/-- One piece of a text in three single quotes that runs over lines. -/
def literalPiece : Scan (List Char) := do
  match ← peek with
  | some '\n' | some '\r' => return [← textBreak]
  | _ => return [← satisfy isPlain]

/-- The content of a text over lines and its closing quotes. -/
def linesRest (quote : Char) (piece : Scan (List Char)) : Scan (List Char) := do
  let _ ← optional lineBreak
  let pieces ← many do
    match ← optional (literal [quote, quote, quote]) with
    | some () => return none
    | none => some <$> piece
  let one ← optional (char quote)
  let two ← optional (char quote)
  let extra := (one.toList ++ two.toList).map fun _ => quote
  return pieces.flatten ++ extra

/-- A text in quotes of any kind, or, if `overLines` is not set, of the kinds on one line. -/
def quoted (overLines : Bool) : Scan String := do
  match ← peek with
  | some '"' =>
    match ← optional (literal ['"', '"', '"']) with
    | some () =>
      if overLines then String.ofList <$> linesRest '"' basicPiece else failure
    | none =>
      char '"'
      String.ofList <$> basicRest
  | some '\'' =>
    match ← optional (literal ['\'', '\'', '\'']) with
    | some () =>
      if overLines then String.ofList <$> linesRest '\'' literalPiece else failure
    | none =>
      char '\''
      String.ofList <$> literalRest
  | _ => failure

end MetricStore.Toml
