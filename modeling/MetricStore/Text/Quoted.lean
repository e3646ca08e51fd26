import MetricStore.Text.CharTable

/-!
Quoted text for messages: a text between double quotes in which every character can be seen.

`quote` escapes the quote, the backslash and the four controls that have a letter or a digit,
writes every other character that extends the one before it or has no glyph as its scalar value
in braces, and keeps the rest as it is.
-/

namespace MetricStore.Text

/-- The scalar value of a character in lower-case hexadecimal between braces, after a
backslash and the letter u. -/
def scalarEscape (c : Char) : List Char :=
  '\\' :: 'u' :: '\x7b' :: (Nat.toDigits 16 c.toNat ++ ['\x7d'])

/-- How one character is shown inside quotes. -/
def showChar (c : Char) : List Char :=
  if c = '"' then ['\\', '"']
  else if c = '\\' then ['\\', '\\']
  else if c = '\t' then ['\\', 't']
  else if c = '\r' then ['\\', 'r']
  else if c = '\n' then ['\\', 'n']
  else if c = '\x00' then ['\\', '0']
  else if isExtender c || isUnprintable c then scalarEscape c
  else [c]

/-- The text between double quotes, every character shown by `showChar`. -/
def quote (text : String) : String :=
  String.ofList ('"' :: (text.toList.flatMap showChar ++ ['"']))

end MetricStore.Text
