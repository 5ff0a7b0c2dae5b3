import MarketFees.Report.Row

namespace MarketFees

/-- A detail row and the scope of its totals. -/
structure Detail where
  key : GroupKey
  scope : Scope
  columns : Columns
  deriving DecidableEq

namespace Detail

def row (d : Detail) : Row :=
  ⟨.detail, some d.key, d.columns⟩

/-- The names that the rows below a summary share, which are those of the first of them. -/
def sharedColumns (level : Level) (totals : Totals) : List Detail → Columns
  | [] => .ofTotals totals
  | first :: _ =>
    let names := { Columns.ofTotals totals with distributor := first.columns.distributor }
    let withProducer := { names with
      producer := first.columns.producer
      producerTaxStatus := first.columns.producerTaxStatus }
    match level with
    | .distributor => names
    | .producer => withProducer
    | .cycle => { withProducer with cycle := first.columns.cycle }

def summary (amounts : AmountSource) (level : Level) (details : List Detail) : Except Fault Row := do
  let totals ← Totals.ofScope amounts (Scope.unionAll (details.map (·.scope)))
  return ⟨.summary level, none, sharedColumns level totals details⟩

/-- Rows and their summary. -/
def summedUp (amounts : AmountSource) (level : Level) (rows : List Detail → Except Fault (List Row))
    (details : List Detail) : Except Fault (List Row) := do
  return (← rows details) ++ [← summary amounts level details]

/-- The rows of the parts that share an id, one part after the other. -/
def parted [BEq κ] (id : GroupKey → κ) (rows : List Detail → Except Fault (List Row))
    (details : List Detail) : Except Fault (List Row) := do
  return (← (details.splitBy fun d d' => id d.key == id d'.key).mapM rows).flatten

/-- The rows of one order cycle of a producer and their summary. -/
def cycleBlock (amounts : AmountSource) : List Detail → Except Fault (List Row) :=
  summedUp amounts .cycle fun details => .ok (details.map row)

/-- The order cycles of one producer and their summary. -/
def producerBlock (amounts : AmountSource) : List Detail → Except Fault (List Row) :=
  summedUp amounts .producer (parted (·.cycle) (cycleBlock amounts))

/-- The producers of one distributor and their summary. -/
def distributorBlock (amounts : AmountSource) : List Detail → Except Fault (List Row) :=
  summedUp amounts .distributor (parted (·.supplier) (producerBlock amounts))

/-- The rows of details in the order given, which has to keep together what is summed up together. -/
def assemble (amounts : AmountSource) (withSummaries : Bool) (details : List Detail) :
    Except Fault (List Row) :=
  if withSummaries then parted (·.distributor) (distributorBlock amounts) details
  else .ok (details.map row)

end Detail

end MarketFees
