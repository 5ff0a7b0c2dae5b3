import MarketFees.Group
import MarketFees.Store

namespace MarketFees

structure Totals where
  exclTax : Decimal
  tax : Decimal
  inclTax : Decimal
  add_eq : exclTax.add? tax = some inclTax
  deriving DecidableEq, Repr

namespace Totals

instance : Zero Totals :=
  ⟨⟨0, 0, 0, rfl⟩⟩

instance : Inhabited Totals :=
  ⟨0⟩

/-- The totals of an amount without tax and a tax. -/
def of (exclTax tax : Decimal) : Except Fault Totals :=
  match h : exclTax.add? tax with
  | some inclTax => .ok ⟨exclTax, tax, inclTax, h⟩
  | none => .error (.overflow .addition)

/-- The totals of a scope. A tax that is included in the price of a fee is taken out of the amount
without tax; as tax counts what the rates of the scope charge on its fees. -/
def ofScope (amounts : AmountSource) (scope : Scope) : Except Fault Totals := do
  if scope.orders.isEmpty || scope.fees.isEmpty then
    return 0
  let fees := (AmountQuery.fees scope.orders).forFees scope.fees.toList
  let feeTotal ← amounts.amountSum fees
  let feeIds ← amounts.adjustmentIds fees
  let taxes := (AmountQuery.taxes scope.orders).onAdjustments feeIds
  let includedTax ← amounts.amountSum (taxes.withIncluded true)
  let tax ←
    if scope.taxRates.isEmpty then pure 0
    else amounts.amountSum (taxes.forTaxRates scope.taxRates.toList)
  of (← feeTotal.sub includedTax) tax

end Totals

end MarketFees
