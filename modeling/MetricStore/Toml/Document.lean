import MetricStore.Toml.Moment
import MetricStore.Toml.Number
import MetricStore.Toml.Quoted
import MetricStore.Toml.Tree

/-!
TOML documents: `Toml.read` gives the value that a text writes, which is a table or a moment in
place of one, or nothing if it writes none.

A document is a row of lines; each sets a key, opens a table, opens an element of an array of
tables, or holds nothing.  The lines are read first and put together after.

Design notes: lists and inline tables lie at most 79 deep in each other, and a dotted key has at
most 79 parts.
-/

namespace MetricStore.Toml

open Scan

/-- How deep lists and inline tables may lie in each other, and how many parts a key may have. -/
def depth : Nat := 79

/-! ### Keys -/

/-- The characters of a key without quotes. -/
def isBare (c : Char) : Bool := c.isAlphanum || c == '_' || c == '-'

/-- One part of a key. -/
def keyPart : Scan String := do
  blanks
  let part ← quoted false <|> String.ofList <$> takeWhile1 isBare
  blanks
  return part

/-- A key: parts with dots between them. -/
def key : Scan (List String) := do
  let parts ← separated keyPart (char '.')
  if parts.length ≤ depth then return parts else failure

/-- A key with what it is set to. -/
structure Pair where
  parents : List String
  last : String
  value : Value

/-- A key, an equals sign and a value. -/
def pair (value : Scan Value) : Scan Pair := do
  let parts ← key
  let last ← parts.getLast?
  char '='
  blanks
  let v ← value
  return ⟨parts.dropLast, last, v⟩

/-! ### Values -/

/-- A value that holds no other. -/
def scalar : Scan Value :=
  Value.text <$> quoted true
    <|> dateOrTime
    <|> decimalReal
    <|> integer
    <|> specialReal
    <|> (do literal ['t', 'r', 'u', 'e']; return .boolean true)
    <|> (do literal ['f', 'a', 'l', 's', 'e']; return .boolean false)

/-- A list: values with commas between them, and one behind the last if wanted. -/
def listOf (value : Scan Value) : Scan Value := do
  char '['
  let item : Scan Value := do
    filler
    let v ← value
    filler
    return v
  let items ← optional do
    let items ← separated item (char ',')
    let _ ← optional (char ',')
    return items
  filler
  char ']'
  return .list (items.getD [])

/-- A table in one line: pairs with commas between them. -/
def inlineTable (value : Scan Value) : Scan Value := do
  char '\x7b'
  let item : Scan Pair := do
    let p ← pair value
    blanks
    return p
  let pairs ← optional (separated item (char ','))
  blanks
  char '\x7d'
  let entries ← (pairs.getD []).foldlM (fun entries p =>
    Entries.addPair p.parents p.last p.value .defined entries) []
  return .table (toTable entries)

/-- A value with at most so many lists and inline tables around another. -/
def valueWithin : Nat → Scan Value
  | 0 => scalar
  | n + 1 => do
    match ← peek with
    | some '[' => listOf (valueWithin n)
    | some '\x7b' => inlineTable (valueWithin n)
    | _ => scalar

/-! ### Lines -/

/-- What one line of a document says. -/
inductive Line where
  | empty
  | pair (p : Pair)
  /-- The header of a table. -/
  | table (parents : List String) (last : String)
  /-- The header of an element of an array of tables. -/
  | element (parents : List String) (last : String)

/-- A header, between one or two brackets on each side. -/
def header (opening closing : List Char) (line : List String → String → Line) : Scan Line := do
  literal opening
  let parts ← key
  let last ← parts.getLast?
  literal closing
  lineEnd
  return line parts.dropLast last

/-- One line, if the text is not at its end. -/
def line : Scan (Option Line) := do
  blanks
  match ← peek with
  | none => return none
  | some '#' | some '\n' | some '\r' =>
    lineEnd
    return some .empty
  | some '[' =>
    some <$> (header ['[', '['] [']', ']'] .element <|> header ['['] [']'] .table)
  | some _ =>
    let p ← pair (valueWithin depth)
    lineEnd
    return some (.pair p)

/-! ### Putting lines together -/

/-- The tables so far, and the path of the table that pairs go into. -/
structure Draft where
  entries : Entries
  path : List String

/-- The draft after one more line. -/
def Draft.add (d : Draft) : Line → Option Draft
  | .empty => d
  | .pair p => do
    let entries ← Entries.within false (Entries.addPair p.parents p.last p.value) d.path .defined
      d.entries
    return { d with entries }
  | .table parents last => do
    return ⟨← d.entries.define parents last, parents ++ [last]⟩
  | .element parents last => do
    return ⟨← d.entries.addElement parents last, parents ++ [last]⟩

/-- The value that a text writes; one byte order mark in front is skipped. -/
def read (text : String) : Option Value := do
  let content := match text.toList with
    | '\ufeff' :: content => content
    | content => content
  let (lines, _) ← (many line).run content
  let draft ← lines.foldlM Draft.add ⟨[], []⟩
  (Value.table (toTable draft.entries)).withMoments

end MetricStore.Toml
