import MarketFees.Report.Row

namespace MarketFees

namespace Field

/-- Keeps a character from ending a line or a column. -/
def escape : Char → List Char
  | '\\' => ['\\', '\\']
  | '|' => ['\\', '|']
  | '\n' => ['\\', 'n']
  | '\r' => ['\\', 'r']
  | c => [c]

def cell : Field → String
  | .missing => ""
  | .flag true => "yes"
  | .flag false => "no"
  | .text value => String.ofList (value.toList.flatMap escape)

end Field

namespace Report

def separator : String :=
  " | "

def header : String :=
  separator.intercalate ("row" :: Columns.names)

end Report

def Row.line (row : Row) : String :=
  Report.separator.intercalate (row.kind.label :: row.columns.fields.map (·.2.cell))

def Report.toText (r : Report) : String :=
  "\n".intercalate (Report.header :: r.rows.map Row.line)

end MarketFees
