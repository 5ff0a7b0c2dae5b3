import MarketFees.Json.Printer
import MarketFees.Json.Reader
import MarketFees.Json.Record
import MarketFees.Ledger.Basic

namespace MarketFees

open Json

def NumberCell.toJson : NumberCell → Json
  | .integer value => .ofInt value.toInt
  | .binary value => .array [.ofInt value]
  | .other => .null

def NumberCell.ofJson? : Json → Option NumberCell
  | .null => some .other
  | .array [value] => value.toInt?.map .binary
  | j => do return .integer (← word? (← j.toInt?))

namespace Table

variable {entity : Entity} {ρ : Type}

def toJson (cells : ρ → List Json) (t : Table (Id entity) ρ) : Json :=
  .array (t.entries.map fun (id, row) => .array (ofId id :: cells row))

def ofJson? (row : List Json → Option ρ) (j : Json) : Option (Table (Id entity) ρ) := do
  let rows ← j.toList? fun
    | .array (id :: cells) => do return (← id.toId?, ← row cells)
    | _ => none
  return .ofList (·.1) (·.2) rows

end Table

namespace EnterpriseRow

def toCells (row : EnterpriseRow) : List Json :=
  [.string row.name, row.chargesSalesTax.toJson]

def ofCells? : List Json → Option EnterpriseRow
  | [name, chargesSalesTax] => do
    return ⟨← name.toString?, ← NumberCell.ofJson? chargesSalesTax⟩
  | _ => none

end EnterpriseRow

namespace CycleRow

def toCells (row : CycleRow) : List Json :=
  [.string row.name, ofOption .string row.opensAt]

def ofCells? : List Json → Option CycleRow
  | [name, opensAt] => do return ⟨← name.toString?, ← toOption? toString? opensAt⟩
  | _ => none

end CycleRow

namespace FeeRow

def toCells (row : FeeRow) : List Json :=
  [.string row.name, .string row.feeType, row.owner.toJson]

def ofCells? : List Json → Option FeeRow
  | [name, feeType, owner] => do
    return ⟨← name.toString?, ← feeType.toString?, ← NumberCell.ofJson? owner⟩
  | _ => none

end FeeRow

namespace TaxRateRow

def toCells (row : TaxRateRow) : List Json :=
  [.string row.name, .string row.amount, ofOption .string row.category]

def ofCells? : List Json → Option TaxRateRow
  | [name, amount, category] => do
    return ⟨← name.toString?, ← amount.toString?, ← toOption? toString? category⟩
  | _ => none

end TaxRateRow

namespace OrderRow

def toCells (row : OrderRow) : List Json :=
  [.string row.number, row.distributor.toJson, row.cycle.toJson, ofOption .string row.completedAt]

def ofCells? : List Json → Option OrderRow
  | [number, distributor, cycle, completedAt] => do
    return ⟨← number.toString?, ← NumberCell.ofJson? distributor, ← NumberCell.ofJson? cycle,
      ← toOption? toString? completedAt⟩
  | _ => none

end OrderRow

namespace LineItemRow

def toCells (row : LineItemRow) : List Json :=
  [row.order.toJson, row.supplier.toJson]

def ofCells? : List Json → Option LineItemRow
  | [order, supplier] => do
    return ⟨← NumberCell.ofJson? order, ← NumberCell.ofJson? supplier⟩
  | _ => none

end LineItemRow

namespace AdjustmentRow

def toCells (row : AdjustmentRow) : List Json :=
  [row.order.toJson, .string row.amount, .string row.originatorType, row.originator.toJson,
    .string row.adjustableType, row.adjustable.toJson, row.included.toJson, .string row.label]

def ofCells? : List Json → Option AdjustmentRow
  | [order, amount, originatorType, originator, adjustableType, adjustable, included, label] => do
    return {
      order := ← NumberCell.ofJson? order
      amount := ← amount.toString?
      originatorType := ← originatorType.toString?
      originator := ← NumberCell.ofJson? originator
      adjustableType := ← adjustableType.toString?
      adjustable := ← NumberCell.ofJson? adjustable
      included := ← NumberCell.ofJson? included
      label := ← label.toString? }
  | _ => none

end AdjustmentRow

namespace Ledger

def toText (l : Ledger) : String :=
  (Json.object [("version", ofOption .string l.version),
    ("enterprises", l.enterprises.toJson EnterpriseRow.toCells),
    ("order_cycles", l.cycles.toJson CycleRow.toCells),
    ("enterprise_fees", l.fees.toJson FeeRow.toCells),
    ("tax_rates", l.taxRates.toJson TaxRateRow.toCells),
    ("orders", l.orders.toJson OrderRow.toCells),
    ("line_items", l.lineItems.toJson LineItemRow.toCells),
    ("adjustments", l.adjustments.toJson AdjustmentRow.toCells)]).toText .compact

/-- The ledger that a text holds. An empty text is an empty ledger. -/
def ofText? (text : String) : Option Ledger :=
  if text.isEmpty then some ∅ else do
    match ← Json.ofText? text with
    | .object [("version", version), ("enterprises", enterprises), ("order_cycles", cycles),
        ("enterprise_fees", fees), ("tax_rates", taxRates), ("orders", orders),
        ("line_items", lineItems), ("adjustments", adjustments)] =>
      return {
        version := ← toOption? toString? version
        enterprises := ← Table.ofJson? EnterpriseRow.ofCells? enterprises
        cycles := ← Table.ofJson? CycleRow.ofCells? cycles
        fees := ← Table.ofJson? FeeRow.ofCells? fees
        taxRates := ← Table.ofJson? TaxRateRow.ofCells? taxRates
        orders := ← Table.ofJson? OrderRow.ofCells? orders
        lineItems := ← Table.ofJson? LineItemRow.ofCells? lineItems
        adjustments := ← Table.ofJson? AdjustmentRow.ofCells? adjustments }
    | _ => none

end Ledger

end MarketFees
