import MarketFees.Order

namespace MarketFees

structure AmountQuery where
  kind : AdjustmentKind
  orders : SortedSet OrderId
  /-- The numbers of the fees or tax rates that the adjustments come from. -/
  originators : Option (SortedSet Int64)
  /-- The adjustments that the adjustments are charged on. -/
  adjustables : Option (SortedSet AdjustmentId)
  included : Option Bool
  deriving DecidableEq

namespace AmountQuery

/-- The fees of these orders. -/
def fees (orders : SortedSet OrderId) : AmountQuery :=
  ⟨.fee, orders, none, none, none⟩

/-- The taxes of these orders. -/
def taxes (orders : SortedSet OrderId) : AmountQuery :=
  ⟨.tax, orders, none, none, none⟩

def forFees (q : AmountQuery) (ids : List FeeId) : AmountQuery :=
  { q with originators := some (.ofList (ids.map (·.value))) }

def forTaxRates (q : AmountQuery) (ids : List TaxRateId) : AmountQuery :=
  { q with originators := some (.ofList (ids.map (·.value))) }

def onAdjustments (q : AmountQuery) (ids : SortedSet AdjustmentId) : AmountQuery :=
  { q with adjustables := some ids }

def withIncluded (q : AmountQuery) (included : Bool) : AmountQuery :=
  { q with included := some included }

/-- Whether one of the restrictions is empty, so that nothing can be selected. -/
def isEmpty (q : AmountQuery) : Bool :=
  q.orders.isEmpty || q.originators.any (·.isEmpty) || q.adjustables.any (·.isEmpty)

def admitsOriginator (q : AmountQuery) (number : Int64) : Bool :=
  q.originators.all (number ∈ ·)

def admitsAdjustable (q : AmountQuery) (adjustable : Adjustable) : Bool :=
  q.adjustables.all fun ids =>
    match adjustable with
    | .adjustment id => id ∈ ids
    | _ => false

def selects (q : AmountQuery) (a : Adjustment) : Bool :=
  a.kind = q.kind && a.order ∈ q.orders && q.admitsOriginator a.originator.number &&
    q.admitsAdjustable a.adjustable && q.included.all (· == a.included)

end AmountQuery

end MarketFees
