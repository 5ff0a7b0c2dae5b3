import MarketFees.Dataset.Basic
import MarketFees.Store
import MarketFees.Table

namespace MarketFees

structure Snapshot where
  orders : List Order
  enterprises : Table EnterpriseId Enterprise
  fees : Table FeeId Fee
  taxRates : Table TaxRateId TaxRate
  cycles : Table CycleId OrderCycle

namespace Snapshot

/-- The order with its adjustments named after it. -/
def owned (order : Order) : Order :=
  { order with adjustments := order.adjustments.map fun a => { a with order := order.id } }

def ofDataset (d : Dataset) : Snapshot where
  orders := d.orders.map owned
  enterprises := .ofList (·.id) id d.enterprises
  fees := .ofList (·.id) id d.fees
  taxRates := .ofList (·.id) id d.taxRates
  cycles := .ofList (·.id) id d.cycles

/-- The adjustments that a query selects, in the order of the dataset. -/
def selected (s : Snapshot) (q : AmountQuery) : List Adjustment :=
  ((s.orders.filter (·.id ∈ q.orders)).flatMap (·.adjustments)).filter q.selects

def search (s : Snapshot) (filters : Filters) (permission : Permission) : List Order :=
  s.orders.filter fun order => filters.matchesOrder order && permission order

def store (s : Snapshot) : Store where
  search filters permission := .ok (s.search filters permission)
  amounts := {
    amountSum q := Decimal.sum ((s.selected q).map (·.amount))
    adjustmentIds q := .ok (.ofList ((s.selected q).map (·.id))) }
  catalog := {
    enterprise id := .ok (s.enterprises.get? id)
    fee id := .ok (s.fees.get? id)
    taxRate id := .ok (s.taxRates.get? id)
    cycle id := .ok (s.cycles.get? id) }

end Snapshot

end MarketFees
