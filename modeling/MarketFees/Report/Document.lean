import MarketFees.Json.Printer
import MarketFees.Report.Text

namespace MarketFees

def Field.toJson : Field → Json
  | .missing => .null
  | .flag value => .bool value
  | .text value => .string value

namespace RowKind

def toJson : RowKind → Json
  | .detail => .string "detail"
  | .summary _ => .string "summary"

def levelToJson : RowKind → Json
  | .detail => .null
  | .summary level => .string level.name

end RowKind

/-- The columns of a row by name. -/
def Row.record (row : Row) : Json :=
  Json.sorted (row.columns.fields.map fun (name, field) => (name, field.toJson))

/-- The kind and level of a row and its columns. -/
def Row.toJson (row : Row) : Json :=
  Json.sorted (("kind", row.kind.toJson) :: ("level", row.kind.levelToJson) ::
    row.columns.fields.map fun (name, field) => (name, field.toJson))

def Report.toJson (r : Report) : Json :=
  .object [("rows", .array (r.rows.map Row.toJson))]

def Report.toDocument (r : Report) : String :=
  r.toJson.toText .indented

inductive OutputFormat where
  | text
  | json
  deriving DecidableEq, Repr

namespace OutputFormat

def name : OutputFormat → String
  | .text => "text"
  | .json => "json"

def ofName? : String → Option OutputFormat
  | "text" => some .text
  | "json" => some .json
  | _ => none

end OutputFormat

def Report.render (r : Report) : OutputFormat → String
  | .text => r.toText
  | .json => r.toDocument

end MarketFees
