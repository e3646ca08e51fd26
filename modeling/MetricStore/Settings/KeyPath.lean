import MetricStore.Text.Numeral

/-!
Key paths: where in nested settings a key points.

A key is a name followed by steps: `.name` goes into a table, `[index]` into a list.  Names have
letters, digits, spaces, underscores and dashes, and case does not matter.  A key that does not
have this form is a name as it stands.

Design notes: a key is brought into lower case before anything else is read in it.  Names are made
of ASCII, and of all other characters the Kelvin sign alone has a lower case that is a character
of names, so no larger table of cases is needed.
-/

namespace MetricStore.Settings

/-- One step into a setting. -/
inductive Step where
  /-- The entry of a table. -/
  | child (name : String)
  /-- The element of a list; from the end if negative. -/
  | index (position : Int)
deriving DecidableEq

/-- A name, and the steps from there. -/
structure KeyPath where
  name : String
  steps : List Step
deriving DecidableEq

namespace KeyPath

/-- The characters of a name in a path. -/
def isNameChar (c : Char) : Bool := c.isAlphanum || c == ' ' || c == '_' || c == '-'

/-- The lower case of a character, as far as names go. -/
def lower (c : Char) : Char := if c = '\u212a' then 'k' else c.toLower

/-- The position between brackets: a decimal integer of 64 bits, with blanks around it. -/
def position? (content : List Char) : Option Int :=
  let isBlank (c : Char) : Bool := c == ' ' || c == '\t'
  let trimmed := ((content.dropWhile isBlank).reverse.dropWhile isBlank).reverse
  let (negative, digits) := match trimmed with
    | '-' :: digits => (true, digits)
    | digits => (false, digits)
  let size : Int := Text.ofDigits 10 digits
  let n := if negative then -size else size
  if !digits.isEmpty && digits.all Char.isDigit && Text.Fits64 n then some n else none

/-- The first step of some text with what stands behind it. -/
def step? : List Char → Option (Step × List Char)
  | '.' :: cs =>
    let name := cs.takeWhile isNameChar
    if name.isEmpty then none else some (.child (String.ofList name), cs.dropWhile isNameChar)
  | '[' :: cs => do
    let position ← position? (cs.takeWhile (· ≠ ']'))
    let rest ← (cs.dropWhile (· ≠ ']')).tail?
    return (.index position, rest)
  | _ => none

/-- The steps of a whole text, which are no more than it has characters. -/
def steps? : Nat → List Char → Option (List Step)
  | _, [] => some []
  | 0, _ :: _ => none
  | n + 1, cs => do
    let (step, rest) ← step? cs
    let steps ← steps? n rest
    return step :: steps

/-- The path of a key of the form above, in lower case. -/
def parse? (key : List Char) : Option KeyPath := do
  let name := key.takeWhile isNameChar
  let rest := key.dropWhile isNameChar
  let steps ← steps? rest.length rest
  if name.isEmpty then none else some ⟨String.ofList name, steps⟩

/-- The path of any key. -/
def ofKey (key : String) : KeyPath :=
  let key := key.toList.map lower
  (parse? key).getD ⟨String.ofList key, []⟩

end KeyPath

end MetricStore.Settings
