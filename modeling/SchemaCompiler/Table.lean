/-!
# Tables

A table keeps its entries in the order in which their keys were first inserted. Inserting a key again
changes its value and not its place. A sorted table lists its entries by key.
-/

namespace SchemaCompiler

structure Table (α : Type) where
  entries : List (String × α) := []

namespace Table

variable {α : Type}

def empty : Table α := ⟨[]⟩

instance : Inhabited (Table α) := ⟨empty⟩

def keys (t : Table α) : List String := t.entries.map (·.1)

def values (t : Table α) : List α := t.entries.map (·.2)

def get? (t : Table α) (key : String) : Option α := t.entries.lookup key

def contains (t : Table α) (key : String) : Bool := (t.get? key).isSome

/-- Changes the value of a key, or puts a new entry behind the others. -/
def alterEntries (key : String) (f : Option α → α) : List (String × α) → List (String × α)
  | [] => [(key, f none)]
  | entry :: rest =>
    if entry.1 = key then (key, f (some entry.2)) :: rest else entry :: alterEntries key f rest

def alter (t : Table α) (key : String) (f : Option α → α) : Table α :=
  ⟨alterEntries key f t.entries⟩

def insert (t : Table α) (key : String) (value : α) : Table α := t.alter key fun _ => value

/-- Appends an item to the list that a key stands for. -/
def push {β : Type} (t : Table (List β)) (key : String) (item : β) : Table (List β) :=
  t.alter key fun items => items.getD [] ++ [item]

end Table

/-! ## Tables sorted by key -/

structure SortedTable (α : Type) where
  entries : List (String × α) := []

namespace SortedTable

variable {α : Type}

def get? (t : SortedTable α) (key : String) : Option α := t.entries.lookup key

def contains (t : SortedTable α) (key : String) : Bool := (t.get? key).isSome

def values (t : SortedTable α) : List α := t.entries.map (·.2)

/-- Changes the value of a key, or puts a new entry in its place. -/
def alterEntries (key : String) (f : Option α → α) : List (String × α) → List (String × α)
  | [] => [(key, f none)]
  | entry :: rest =>
    if key < entry.1 then (key, f none) :: entry :: rest
    else if key = entry.1 then (key, f (some entry.2)) :: rest
    else entry :: alterEntries key f rest

def alter (t : SortedTable α) (key : String) (f : Option α → α) : SortedTable α :=
  ⟨alterEntries key f t.entries⟩

def insert (t : SortedTable α) (key : String) (value : α) : SortedTable α := t.alter key fun _ => value

end SortedTable

end SchemaCompiler
