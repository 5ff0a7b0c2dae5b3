import MarketFees.Json.Basic
import MarketFees.Time.Reader
import MarketFees.Time.Text

namespace MarketFees.Json

/-- What a record holds in the field of a name: nothing, or one value. A repeated field is refused. -/
def fieldOf? (fields : List (String × Json)) (name : String) : Option (Option Json) :=
  match fields.filter (·.1 == name) with
  | [] => some none
  | [(_, content)] => some (some content)
  | _ => none

/-- The contents of the fields with these names. -/
def record? (names : List String) : Json → Option (List (Option Json))
  | .object fields => names.mapM (fieldOf? fields)
  | .array items =>
    if items.length ≤ names.length then
      some (items.map some ++ List.replicate (names.length - items.length) none)
    else none
  | _ => none

def toBool? : Json → Option Bool
  | .bool value => some value
  | _ => none

def toString? : Json → Option String
  | .string text => some text
  | _ => none

/-- The name of one of several cases: its text, or an object with the name as only key and null in it. -/
def toCase? : Json → Option String
  | .string name => some name
  | .object [(name, .null)] => some name
  | _ => none

def toInt? : Json → Option Int
  | .number n => n.toInt?
  | _ => none

def toId? (j : Json) : Option (Id entity) := do
  Id.ofInt? (← j.toInt?)

def toList? (item : Json → Option α) : Json → Option (List α)
  | .array items => items.mapM item
  | _ => none

/-- A value, or null for none. -/
def toOption? (value : Json → Option α) : Json → Option (Option α)
  | .null => some none
  | j => (value j).map some

/-- An amount: its text, or a number. -/
def toDecimal? : Json → Option Decimal
  | .string text => Decimal.ofText? text
  | .number n => n.toDecimal?
  | _ => none

def toInstant? (j : Json) : Option Instant := do
  Instant.ofDocument? (← j.toString?)

/-- A field that may be left out, with its value then. -/
def orElse (value : Json → Option α) (absent : α) : Option Json → Option α
  | none => some absent
  | some j => value j

def ofDecimal (a : Decimal) : Json :=
  .string a.toText

def ofInstant (t : Instant) : Json :=
  .string t.toDocument

end MarketFees.Json
