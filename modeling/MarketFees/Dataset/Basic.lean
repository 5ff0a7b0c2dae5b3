import MarketFees.Definition
import MarketFees.Order

namespace MarketFees

structure Dataset where
  enterprises : List Enterprise
  cycles : List OrderCycle
  fees : List Fee
  taxRates : List TaxRate
  orders : List Order
  deriving DecidableEq, Repr

namespace Dataset

instance : EmptyCollection Dataset :=
  ⟨⟨[], [], [], [], []⟩⟩

def isEmpty (d : Dataset) : Bool :=
  d.enterprises.isEmpty && d.cycles.isEmpty && d.fees.isEmpty && d.taxRates.isEmpty &&
    d.orders.isEmpty

def adjustmentCount (d : Dataset) : Nat :=
  (d.orders.flatMap (·.adjustments)).length

/-- An adjustment that names another order than the one it is listed in. -/
structure Stray where
  adjustment : AdjustmentId
  declared : OrderId
  order : OrderId
  deriving DecidableEq, Repr

/-- The first stray adjustment of an order. -/
def strayOf? (order : Order) : Option Stray :=
  (order.adjustments.find? (·.order ≠ order.id)).map fun a => ⟨a.id, a.order, order.id⟩

/-- The first stray adjustment, where there is one. -/
def stray? (d : Dataset) : Option Stray :=
  d.orders.findSome? strayOf?

end Dataset

end MarketFees
