import MarketFees.Id
import MarketFees.Json.Number

namespace MarketFees

inductive Json where
  | null
  | bool (value : Bool)
  | number (value : Json.Number)
  | string (text : String)
  | array (items : List Json)
  | object (fields : List (String × Json))
  /-- A string, or an object with a key, that names half a surrogate pair. It is well formed and may
  be passed over, but there is no text to read. -/
  | halfPair

namespace Json

def ofInt (n : Int) : Json :=
  .number (.ofInt n)

def ofId (id : Id entity) : Json :=
  .ofInt id.toInt

def ofOption (f : α → Json) : Option α → Json
  | none => .null
  | some a => f a

/-- The object with these fields in the order of their names. -/
def sorted (fields : List (String × Json)) : Json :=
  .object (fields.mergeSort fun a b => (compare a.1 b.1).isLE)

end Json

end MarketFees
