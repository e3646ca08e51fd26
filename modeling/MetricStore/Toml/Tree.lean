import MetricStore.Toml.Value

/-!
Trees: the tables of a TOML document while it is read.

A table comes into being in one of three ways (`Origin`): by its own header or as an element of
an array of tables, as the parent of another header's table, or as the parent in a dotted key.
These decide what may still be added to it: a header may complete a table only parents have made,
once, and a dotted key may add to tables only dotted keys have made.  A path that leads through an
array of tables goes on in its last element.

Every function gives `none` where the document defines something twice or through something that
is no table.
-/

namespace MetricStore.Toml

/-- How a table came into being. -/
inductive Origin where
  /-- By its own header, as an element of an array of tables, or as the document. -/
  | defined
  /-- As a parent in a header. -/
  | implied
  /-- As a parent in a dotted key. -/
  | dotted
deriving DecidableEq

/-- What stands under a key while a document is read. -/
inductive Node where
  /-- A value, to which nothing can be added. -/
  | value (v : Value)
  | table (origin : Origin) (entries : List (String × Node))
  /-- An array of tables, each with its own header. -/
  | tables (elements : List (List (String × Node)))

/-- The entries of a table while a document is read. -/
abbrev Entries := List (String × Node)

namespace Entries

/-- Changes what stands under a key, or adds it at the end. -/
def alter (key : String) (change : Option Node → Option Node) : Entries → Option Entries
  | [] => do
    let node ← change none
    return [(key, node)]
  | (k, node) :: rest =>
    if k = key then do
      let node ← change (some node)
      return (k, node) :: rest
    else do
      let rest ← alter key change rest
      return (k, node) :: rest

/-- Changes the entries of the table at the end of a path, making the tables on the way that are
not there.  A dotted path passes only through tables that no header has defined. -/
def within (isDotted : Bool) (change : Origin → Entries → Option Entries) :
    List String → Origin → Entries → Option Entries
  | [], origin, entries => change origin entries
  | key :: path, _, entries =>
    alter key (fun
      | none => do
        let origin := if isDotted then Origin.dotted else .implied
        return .table origin (← within isDotted change path origin [])
      | some (.value _) => none
      | some (.table origin sub) =>
        if isDotted && origin = .defined then none
        else do
          return .table origin (← within isDotted change path origin sub)
      | some (.tables elements) => do
        let last ← elements.getLast?
        return .tables (elements.dropLast ++ [← within isDotted change path .defined last])) entries

/-- Adds a value under a key that is not there yet. -/
def addValue (key : String) (v : Value) (entries : Entries) : Option Entries :=
  entries.alter key fun
    | none => some (.value v)
    | some _ => none

/-- Adds a value under a dotted key; the parents it names are no tables of headers. -/
def addPair (parents : List String) (key : String) (v : Value) (origin : Origin)
    (entries : Entries) : Option Entries :=
  within true (fun origin entries =>
    -- A table that a dotted key made takes pairs from dotted keys alone, and only such a table does.
    if (origin == .dotted) == parents.isEmpty then none else addValue key v entries)
    parents origin entries

/-- Defines the table of a header.  It comes last in its parent, also if other headers have
implied it before. -/
def define (parents : List String) (key : String) (entries : Entries) : Option Entries :=
  within false (fun _ entries =>
    match entries.lookup key with
    | none => some (entries ++ [(key, .table .defined [])])
    | some (.table .implied sub) =>
      some (entries.filter (·.1 ≠ key) ++ [(key, .table .defined sub)])
    | some _ => none) parents .defined entries

/-- Adds an element to the array of tables of a header. -/
def addElement (parents : List String) (key : String) (entries : Entries) : Option Entries :=
  within false (fun _ entries => entries.alter key fun
    | none => some (.tables [[]])
    | some (.tables elements) => some (.tables (elements ++ [[]]))
    | some _ => none) parents .defined entries

end Entries

mutual

/-- The value that a finished tree stands for. -/
def Node.toValue : Node → Value
  | .value v => v
  | .table _ entries => .table (toTable entries)
  | .tables elements => .list (toTables elements)

/-- The table of finished entries. -/
def toTable : List (String × Node) → Table
  | [] => []
  | (key, node) :: rest => (key, node.toValue) :: toTable rest

/-- The list of finished tables. -/
def toTables : List (List (String × Node)) → List Value
  | [] => []
  | entries :: rest => .table (toTable entries) :: toTables rest

end

end MetricStore.Toml
