import MarketFees.Filters

namespace MarketFees

structure Charge where
  order : Order
  fee : FeeId
  taxRate : Option TaxRateId
  supplier : EnterpriseId
  deriving DecidableEq, Repr

/-- The charges of an order by fee, then by tax rate, then by supplier. -/
def Order.charges (order : Order) : List Charge :=
  order.fees.toList.flatMap fun fee =>
    (order.taxOutcomes (order.feeAdjustments fee)).flatMap fun taxRate =>
      order.suppliers.toList.map fun supplier => ⟨order, fee, taxRate, supplier⟩

namespace Charge

/-- The charges of all the orders in turn. -/
def ofOrders (orders : List Order) : List Charge :=
  orders.flatMap Order.charges

/-- Whether the filters on producers and fees admit a charge. -/
def passes (f : Filters) (c : Charge) : Bool :=
  f.allowsProducer c.supplier && f.allowsFee c.fee

end Charge

end MarketFees
