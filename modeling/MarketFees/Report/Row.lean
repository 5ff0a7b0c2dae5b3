import MarketFees.Totals

namespace MarketFees

/-- The levels of the hierarchy in which rows are summed up. -/
inductive Level where
  | distributor
  | producer
  | cycle
  deriving DecidableEq, Repr

def Level.name : Level → String
  | .distributor => "distributor"
  | .producer => "producer"
  | .cycle => "order_cycle"

inductive RowKind where
  | detail
  | summary (level : Level)
  deriving DecidableEq, Repr

def RowKind.label : RowKind → String
  | .detail => "detail"
  | .summary level => "summary:" ++ level.name

/-- A value in a column. -/
inductive Field where
  | missing
  | flag (value : Bool)
  | text (value : String)
  deriving DecidableEq, Repr

namespace Field

def ofText : Option String → Field :=
  (·.elim missing text)

def ofFlag : Option Bool → Field :=
  (·.elim missing flag)

def ofDecimal (a : Decimal) : Field :=
  text a.toText

end Field

/-- What a row shows. A definition that is missing leaves its columns empty. -/
structure Columns where
  distributor : Option String
  producer : Option String
  producerTaxStatus : Option Bool
  cycle : Option String
  feeName : Option String
  feeType : Option String
  feeOwner : Option String
  taxCategory : Option String
  taxRateName : Option String
  taxRate : Option Decimal
  totals : Totals
  deriving DecidableEq, Repr

namespace Columns

/-- Totals with all other columns empty. -/
def ofTotals (totals : Totals) : Columns :=
  ⟨none, none, none, none, none, none, none, none, none, none, totals⟩

/-- The columns by name, in the order in which they are shown. -/
def fields (c : Columns) : List (String × Field) :=
  [("distributor", .ofText c.distributor),
    ("producer", .ofText c.producer),
    ("producer_tax_status", .ofFlag c.producerTaxStatus),
    ("order_cycle", .ofText c.cycle),
    ("enterprise_fee_name", .ofText c.feeName),
    ("enterprise_fee_type", .ofText c.feeType),
    ("enterprise_fee_owner", .ofText c.feeOwner),
    ("tax_category", .ofText c.taxCategory),
    ("tax_rate_name", .ofText c.taxRateName),
    ("tax_rate", c.taxRate.elim .missing .ofDecimal),
    ("total_excl_tax", .ofDecimal c.totals.exclTax),
    ("tax", .ofDecimal c.totals.tax),
    ("total_incl_tax", .ofDecimal c.totals.inclTax)]

/-- The names of the columns. -/
def names : List String :=
  (ofTotals 0).fields.map (·.1)

theorem map_fst_fields (c : Columns) : c.fields.map (·.1) = names :=
  rfl

end Columns

structure Row where
  kind : RowKind
  /-- The key of a detail row. -/
  key : Option GroupKey
  columns : Columns
  deriving DecidableEq, Repr

def Row.isSummary (row : Row) : Bool :=
  row.kind ≠ .detail

structure Report where
  rows : List Row
  deriving DecidableEq, Repr

namespace Report

instance : EmptyCollection Report :=
  ⟨⟨[]⟩⟩

def isEmpty (r : Report) : Bool :=
  r.rows.isEmpty

def details (r : Report) : List Row :=
  r.rows.filter (!·.isSummary)

def summaries (r : Report) (level : Level) : List Row :=
  r.rows.filter (·.kind = .summary level)

end Report

end MarketFees
