/-!
Tables: hash maps, as lists of keys with their values.

A table has each key once, and a walk over it meets its entries in some order.  A value is looked up
and changed by its key; a key that is put in again stays as it was stored first.

Design notes: that keys are distinct is a property of the tables made here and no part of the type.
The order of the entries is the one in which they were put in, which a hash map does not keep; so
nothing that is read from a table may depend on it.
-/

namespace MetricStore

/-- Keys with their values, in the order in which a walk meets them. -/
structure Table (κ α : Type) where
  entries : List (κ × α)
deriving DecidableEq

namespace Table

variable {κ α : Type}

def empty : Table κ α := ⟨[]⟩

/-- The keys, as they are stored. -/
def keys (t : Table κ α) : List κ := t.entries.map Prod.fst

def values (t : Table κ α) : List α := t.entries.map Prod.snd

variable [DecidableEq κ]

/-- A key as it is stored, with its value. -/
def pair? (t : Table κ α) (key : κ) : Option (κ × α) := t.entries.find? fun e => e.1 = key

/-- The value of a key. -/
def get? (t : Table κ α) (key : κ) : Option α := (t.pair? key).map Prod.snd

/-- Changes the value of a key, if it has one. -/
def modify (t : Table κ α) (key : κ) (f : α → α) : Table κ α :=
  ⟨t.entries.map fun e => (e.1, if e.1 = key then f e.2 else e.2)⟩

/-- Changes the value of a key, which is put in with `initial` before if it has none. -/
def modifyOr (t : Table κ α) (key : κ) (initial : α) (f : α → α) : Table κ α :=
  match t.pair? key with
  | some _ => t.modify key f
  | none => ⟨t.entries ++ [(key, f initial)]⟩

/-- Puts a value under a key, in the place of the one it has. -/
def insert (t : Table κ α) (key : κ) (a : α) : Table κ α := t.modifyOr key a fun _ => a

end Table

end MetricStore
