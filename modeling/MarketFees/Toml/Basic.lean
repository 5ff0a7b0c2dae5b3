namespace MarketFees

inductive Toml where
  | string (text : String)
  | integer (value : Int)
  | float (spelling : String)
  | boolean (value : Bool)
  /-- A date, a time of day, or both, with or without an offset. -/
  | time (spelling : String)
  | array (items : List Toml)
  | table (entries : List (String × Toml))

namespace Toml

/-- The contents of a group of settings by name. A group is a table, in which other entries are passed
over, or an array of the contents in the order of their names. A date or time passes for a table in
which no name is known. -/
def group? (names : List String) : Toml → Option (List (Option Toml))
  | .table entries => some (names.map (List.lookup · entries))
  | .array items => some ((List.range names.length).map (items[·]?))
  | .time _ => some (names.map fun _ => none)
  | _ => none

def toString? : Toml → Option String
  | .string text => some text
  | _ => none

def toBool? : Toml → Option Bool
  | .boolean value => some value
  | _ => none

def isEmpty : Toml → Bool
  | .array [] => true
  | .table [] => true
  | _ => false

/-- A setting that may be left out, with its value then. -/
def orElse (value : Toml → Option α) (absent : α) : Option Toml → Option α
  | none => some absent
  | some t => value t

end Toml

end MarketFees
