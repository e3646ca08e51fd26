import MetricStore.Text.Quoted

/-!
Series: the identity of one stream of samples, a name behind an ordered list of tags.

`Series.text` writes a series as `key:value key:value Name`; `Series.parse` reads such a text.
The text is cut at spaces and nothing else, empty pieces are dropped, the last piece is the name
and every other one a tag, cut at its first colon.

Main definitions of the form of a text: `Series.tokens` (the pieces), `Series.IsTag` and
`Series.IsName` (what a piece must be), `Series.WellFormed` (the series whose text reads back).

Design notes: a series can be built from any strings; only those read from a text are known to
be well formed.  A cause of refusal is a value (`ParseFault`) with its wording in one place.
-/

namespace MetricStore

/-- The identity of a stream of samples.  Tags keep their order, and two series are the same if
their tags and names are. -/
structure Series where
  tags : List (String × String)
  name : String
deriving DecidableEq

namespace Series

instance : Inhabited Series := ⟨⟨[], ""⟩⟩

/-- The untagged series of a name, which is taken as it is. -/
def ofName (name : String) : Series := ⟨[], name⟩

/-- The series with one more tag, behind the tags it has. -/
def withTag (s : Series) (key value : String) : Series := { s with tags := s.tags ++ [(key, value)] }

/-- The value of the first tag with this key. -/
def tag? (s : Series) (key : String) : Option String :=
  (s.tags.find? fun t => t.1 == key).map Prod.snd

/-! ### The text of a series -/

/-- The token of a tag: its key, a colon, its value. -/
def tagToken (t : String × String) : List Char := t.1.toList ++ ':' :: t.2.toList

/-- The text of a series: its tags, each with a space behind it, then its name. -/
def text (s : Series) : String :=
  String.ofList (s.tags.flatMap (fun t => tagToken t ++ [' ']) ++ s.name.toList)

/-! ### Reading a text -/

/-- Why a text is no series. -/
inductive ParseFault where
  /-- There is no token at all. -/
  | blank
  /-- The last token of the text has a colon in it, so the name is missing. -/
  | nameless (text : String)
  /-- A token before the name is no tag. -/
  | badTag (token text : String)
deriving DecidableEq

/-- The wording of a refusal; texts are quoted. -/
def ParseFault.message : ParseFault → String
  | .blank => "empty series"
  | .nameless text => "missing metric name in " ++ Text.quote text
  | .badTag token text =>
    "malformed tag " ++ Text.quote token ++ " in " ++ Text.quote text

/-- The maximal pieces of a text without a space in them; there are no empty ones. -/
def tokens (text : List Char) : List (List Char) :=
  (text.splitOn ' ').filter fun piece => !piece.isEmpty

/-- A name is a token without a colon. -/
def IsName (token : List Char) : Prop := ':' ∉ token

instance (token : List Char) : Decidable (IsName token) := inferInstanceAs (Decidable (_ ∉ _))

/-- A tag is a token that has a colon in it and does not begin with one. -/
def IsTag (token : List Char) : Prop := ':' ∈ token ∧ token.head? ≠ some ':'

instance (token : List Char) : Decidable (IsTag token) := inferInstanceAs (Decidable (_ ∧ _))

/-- The key before the first colon of a token and the value behind it. -/
def cutTag (token : List Char) : String × String :=
  (String.ofList (token.takeWhile (· ≠ ':')), String.ofList ((token.dropWhile (· ≠ ':')).drop 1))

/-- The tag written by a token of `text`. -/
def readTag (text : String) (token : List Char) : Except ParseFault (String × String) :=
  if IsTag token then .ok (cutTag token) else .error (.badTag (String.ofList token) text)

/-- Reads the text of a series: the last token is its name and the others are its tags, and the
first token that cannot be is the fault, the name before all. -/
def parse (text : String) : Except ParseFault Series := do
  let pieces := tokens text.toList
  match pieces.getLast? with
  | none => .error .blank
  | some name =>
    if IsName name then
      let tags ← pieces.dropLast.mapM (readTag text)
      return ⟨tags, String.ofList name⟩
    else
      .error (.nameless text)

/-- The series whose text is their own: no piece is empty where it may not be, and no space or
colon stands where the text would be cut. -/
structure WellFormed (s : Series) : Prop where
  name_ne : s.name ≠ ""
  name_plain : ∀ c ∈ s.name.toList, c ≠ ' ' ∧ c ≠ ':'
  key_ne : ∀ t ∈ s.tags, t.1 ≠ ""
  key_plain : ∀ t ∈ s.tags, ∀ c ∈ t.1.toList, c ≠ ' ' ∧ c ≠ ':'
  value_plain : ∀ t ∈ s.tags, ∀ c ∈ t.2.toList, c ≠ ' '

end Series

end MetricStore
