import MarketFees.Toml.Basic

namespace MarketFees.Toml

/-- How a table came to be. -/
inductive Origin where
  | header
  /-- On the way to the table of a header. -/
  | path
  /-- On the way to the value of a dotted key. -/
  | dotted
  deriving DecidableEq, Repr

/-- What a key stands for. -/
inductive Entry where
  | value (content : Toml)
  | table (origin : Origin) (entries : List (String × Entry))
  /-- An array of the tables of double headers: the complete ones, and the last one. -/
  | tables (complete : List Toml) (last : List (String × Entry))

abbrev Entries := List (String × Entry)

mutual

def Entry.complete : Entry → Toml
  | .value content => content
  | .table _ entries => .table (completeAll entries)
  | .tables complete last => .array (complete ++ [.table (completeAll last)])

def completeAll : List (String × Entry) → List (String × Toml)
  | [] => []
  | (key, entry) :: rest => (key, entry.complete) :: completeAll rest

end

namespace Entries

/-- Replaces the entry of a key, or adds one. -/
def alter (key : String) (f : Option Entry → Option Entry) : Entries → Option Entries
  | [] => (f none).map fun entry => [(key, entry)]
  | (k, entry) :: rest =>
    if k = key then (f (some entry)).map fun entry => (k, entry) :: rest
    else (alter key f rest).map ((k, entry) :: ·)

/-- Changes the table at the end of a path of headers, where an array of tables stands for its last
one. -/
def within (f : Entries → Option Entries) : (path : List String) → Entries → Option Entries
  | [], entries => f entries
  | key :: path, entries => entries.alter key fun
    | none => (within f path []).map (.table .path)
    | some (.table origin inner) => (within f path inner).map (.table origin)
    | some (.tables complete last) => (within f path last).map (.tables complete)
    | some (.value _) => none

/-- Starts the table of a header, which may have been on the way to others. -/
def openTable (key : String) (entries : Entries) : Option Entries :=
  entries.alter key fun
    | none => some (.table .header [])
    | some (.table .path inner) => some (.table .header inner)
    | some _ => none

/-- Starts one more table of an array. -/
def openItem (key : String) (entries : Entries) : Option Entries :=
  entries.alter key fun
    | none => some (.tables [] [])
    | some (.tables complete last) => some (.tables (complete ++ [.table (completeAll last)]) [])
    | some _ => none

/-- Sets the value of a dotted key, on whose way the last table stands for an array of tables. -/
def assign (content : Toml) : (key : List String) → Entries → Option Entries
  | [], _ => none
  | [key], entries => entries.alter key fun
    | none => some (.value content)
    | some _ => none
  | key :: rest, entries => entries.alter key fun
    | none => (assign content rest []).map (.table .dotted)
    | some (.table .dotted inner) => (assign content rest inner).map (.table .dotted)
    | some (.table .path inner) =>
      if rest.length = 1 then none else (assign content rest inner).map (.table .path)
    | some (.tables complete last) =>
      if rest.length = 1 then none else (assign content rest last).map (.tables complete)
    | some _ => none

end Entries

end MarketFees.Toml
