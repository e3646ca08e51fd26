/-!
The values of a TOML document.

Dates and times are kept as their text in one normal form; everything else has its own kind.
-/

namespace MetricStore.Toml

/-- A value of a document. -/
inductive Value where
  | text (content : String)
  | integer (number : Int)
  | real (number : Float)
  | boolean (truth : Bool)
  /-- A date, a time, or both, in normal form. -/
  | moment (content : String)
  | list (items : List Value)
  | table (entries : List (String × Value))

/-- The entries of a table in the order in which they were begun. -/
abbrev Table := List (String × Value)

end MetricStore.Toml
