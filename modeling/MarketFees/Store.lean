import MarketFees.AmountQuery
import MarketFees.Fault
import MarketFees.Filters

namespace MarketFees

/-- Sums of adjustments and the ids of the adjustments in them. -/
structure AmountSource where
  amountSum : AmountQuery → Except Fault Decimal
  adjustmentIds : AmountQuery → Except StoreError (SortedSet AdjustmentId)

/-- Definitions by id. A definition that is missing is no error. -/
structure Catalog where
  enterprise : EnterpriseId → Except StoreError (Option Enterprise)
  fee : FeeId → Except StoreError (Option Fee)
  taxRate : TaxRateId → Except StoreError (Option TaxRate)
  cycle : CycleId → Except StoreError (Option OrderCycle)

/-- Whether a caller may see an order. -/
abbrev Permission := Order → Bool

def Permission.everything : Permission :=
  fun _ => true

structure Store where
  /-- The orders that pass the filters and that the caller may see, with all that belongs to them. -/
  search : Filters → Permission → Except StoreError (List Order)
  amounts : AmountSource
  catalog : Catalog

end MarketFees
