import MetricStore.Settings.KeyPath
import MetricStore.Settings.Scalar
import MetricStore.Toml.Value

/-!
Layers: settings from several sources put over each other, key by key.

Every source is a list of keys with what they are set to, the later ones over the earlier.  A
layer of settings remembers for each name what it is now, and where a value came from.

Design notes: nobody asks what a list or a table holds, so `Setting` does not say.  A step into
something that is no table (or no list) makes it one, which then comes from nowhere.
-/

namespace MetricStore.Settings

/-- Where a value was written. -/
inductive Origin where
  | environment
  | file (path : String)
deriving DecidableEq

/-- The name of an origin in a message. -/
def Origin.name : Origin → String
  | environment => "the environment"
  | file path => path

/-- What a name is set to. -/
inductive Setting where
  | scalar (value : Scalar) (origin : Origin)
  /-- A list, with its origin if it was written as one. -/
  | list (origin : Option Origin)
  | table

/-- What a key is to be set to. -/
inductive Given where
  | setting (value : Setting)
  /-- A table, whose entries are put over what is there; an empty one changes nothing. -/
  | table (isEmpty : Bool)

/-- What a value in a document gives. -/
def Given.ofValue (origin : Origin) : Toml.Value → Given
  | .text content => .setting (.scalar (.text content) origin)
  | .moment content => .setting (.scalar (.text content) origin)
  | .integer number => .setting (.scalar (.integer number) origin)
  | .real number => .setting (.scalar (.real number) origin)
  | .boolean truth => .setting (.scalar (.boolean truth) origin)
  | .list _ => .setting (.list (some origin))
  | .table entries => .table entries.isEmpty

/-- A setting after something is put at the end of some steps into it. -/
def Setting.put (current : Option Setting) (given : Given) : List Step → Setting
  | [] =>
    match given, current with
    | .setting value, _ => value
    | .table true, some value => value
    | .table _, _ => .table
  | .child _ :: _ => .table
  | .index _ :: _ =>
    match current with
    | some (.list origin) => .list origin
    | _ => .list none

/-- Settings by name. -/
abbrev Layer := List (String × Setting)

namespace Layer

/-- What a name is set to. -/
def get? (layer : Layer) (name : String) : Option Setting := layer.lookup name

/-- Sets a name. -/
def set (layer : Layer) (name : String) (value : Setting) : Layer :=
  match layer with
  | [] => [(name, value)]
  | (n, old) :: rest => if n = name then (n, value) :: rest else (n, old) :: set rest name value

theorem get?_set_self (layer : Layer) (name : String) (value : Setting) :
    (layer.set name value).get? name = some value := by
  induction layer with
  | nil => simp [set, get?]
  | cons entry rest ih =>
    obtain ⟨n, old⟩ := entry
    by_cases h : n = name
    · simp [set, get?, h]
    · have hne : (name == n) = false := by simpa using Ne.symm h
      rw [set, if_neg h, get?, List.lookup_cons, hne]
      exact ih

theorem get?_set_other (layer : Layer) {name other : String} (h : other ≠ name)
    (value : Setting) : (layer.set name value).get? other = layer.get? other := by
  induction layer with
  | nil =>
    have hne : (other == name) = false := by simpa using h
    simp [set, get?, List.lookup_cons, hne]
  | cons entry rest ih =>
    obtain ⟨n, old⟩ := entry
    by_cases hn : n = name
    · have hne : (other == n) = false := by simpa [hn] using h
      rw [set, if_pos hn, get?, get?, List.lookup_cons, List.lookup_cons, hne]
    · rw [set, if_neg hn, get?, get?, List.lookup_cons, List.lookup_cons]
      split
      · rfl
      · exact ih

/-- Puts one key over a layer. -/
def put (layer : Layer) (key : String) (given : Given) : Layer :=
  let path := KeyPath.ofKey key
  layer.set path.name (Setting.put (layer.get? path.name) given path.steps)

/-- Puts the keys of a source over a layer, one after the other. -/
def putAll (layer : Layer) (source : List (String × Given)) : Layer :=
  source.foldl (fun layer (key, given) => layer.put key given) layer

end Layer

/-! ### Sources -/

/-- What a document gives. -/
def ofTable (origin : Origin) (table : Toml.Table) : List (String × Given) :=
  table.map fun (key, value) => (key, Given.ofValue origin value)

/-- The names of the variables that count begin so, in any case. -/
def variableStart : List Char := "mcstore_".toList

/-- Two underscores in the name of a variable step into a table. -/
def stepInto : List Char → List Char
  | '_' :: '_' :: cs => '.' :: stepInto cs
  | c :: cs => c :: stepInto cs
  | [] => []

/-- The key that a variable sets, if it counts. -/
def variableKey? (name : String) : Option String :=
  let folded := name.toLower.toList
  if variableStart.isPrefixOf folded then
    some (String.ofList (stepInto (folded.drop variableStart.length)))
  else none

/-- What the environment gives; an empty variable gives nothing. -/
def ofVariables (environment : List (String × String)) : List (String × Given) :=
  environment.filterMap fun (name, content) =>
    if content = "" then none
    else (variableKey? name).map fun key =>
      (key, .setting (.scalar (Scalar.ofVariable content) .environment))

end MetricStore.Settings
