import MarketFees.Dataset.Basic
import MarketFees.Json.Printer
import MarketFees.Json.Reader
import MarketFees.Json.Record

namespace MarketFees

open Json

def FeeType.ofJson? (j : Json) : Option FeeType := do
  FeeType.ofName? (← j.toCase?)

def Enterprise.ofJson? (j : Json) : Option Enterprise := do
  match ← j.record? ["id", "name", "charges_sales_tax"] with
  | [id, name, chargesSalesTax] =>
    return {
      id := ← (← id).toId?
      name := ← (← name).toString?
      chargesSalesTax := ← orElse toBool? false chargesSalesTax }
  | _ => none

def Enterprise.toJson (e : Enterprise) : Json :=
  .object [("id", ofId e.id), ("name", .string e.name),
    ("charges_sales_tax", .bool e.chargesSalesTax)]

def OrderCycle.ofJson? (j : Json) : Option OrderCycle := do
  match ← j.record? ["id", "name", "orders_open_at"] with
  | [id, name, opensAt] =>
    return {
      id := ← (← id).toId?
      name := ← (← name).toString?
      opensAt := ← orElse (toOption? toInstant?) none opensAt }
  | _ => none

def OrderCycle.toJson (c : OrderCycle) : Json :=
  .object [("id", ofId c.id), ("name", .string c.name),
    ("orders_open_at", ofOption ofInstant c.opensAt)]

def Fee.ofJson? (j : Json) : Option Fee := do
  match ← j.record? ["id", "name", "fee_type", "owner_id"] with
  | [id, name, feeType, owner] =>
    return {
      id := ← (← id).toId?
      name := ← (← name).toString?
      feeType := ← FeeType.ofJson? (← feeType)
      owner := ← (← owner).toId? }
  | _ => none

def Fee.toJson (f : Fee) : Json :=
  .object [("id", ofId f.id), ("name", .string f.name), ("fee_type", .string f.feeType.name),
    ("owner_id", ofId f.owner)]

def TaxRate.ofJson? (j : Json) : Option TaxRate := do
  match ← j.record? ["id", "name", "amount", "tax_category"] with
  | [id, name, amount, category] =>
    return {
      id := ← (← id).toId?
      name := ← (← name).toString?
      amount := ← (← amount).toDecimal?
      category := ← orElse (toOption? toString?) none category }
  | _ => none

def TaxRate.toJson (r : TaxRate) : Json :=
  .object [("id", ofId r.id), ("name", .string r.name), ("amount", ofDecimal r.amount),
    ("tax_category", ofOption .string r.category)]

def LineItem.ofJson? (j : Json) : Option LineItem := do
  match ← j.record? ["id", "supplier_id"] with
  | [id, supplier] => return { id := ← (← id).toId?, supplier := ← (← supplier).toId? }
  | _ => none

def LineItem.toJson (item : LineItem) : Json :=
  .object [("id", ofId item.id), ("supplier_id", ofId item.supplier)]

def Originator.ofJson? (j : Json) : Option Originator := do
  match ← j.record? ["type", "id"] with
  | [type, id] =>
    match ← (← type).toCase? with
    | "enterprise_fee" => return .fee (← (← id).toId?)
    | "tax_rate" => return .taxRate (← (← id).toId?)
    | _ => none
  | _ => none

def Originator.toJson : Originator → Json
  | .fee id => .object [("type", .string "enterprise_fee"), ("id", ofId id)]
  | .taxRate id => .object [("type", .string "tax_rate"), ("id", ofId id)]

def Adjustable.ofJson? (j : Json) : Option Adjustable := do
  match ← j.record? ["type", "id"] with
  | [type, id] =>
    match ← (← type).toCase? with
    | "order" => return .order (← (← id).toId?)
    | "line_item" => return .lineItem (← (← id).toId?)
    | "adjustment" => return .adjustment (← (← id).toId?)
    | _ => none
  | _ => none

def Adjustable.toJson : Adjustable → Json
  | .order id => .object [("type", .string "order"), ("id", ofId id)]
  | .lineItem id => .object [("type", .string "line_item"), ("id", ofId id)]
  | .adjustment id => .object [("type", .string "adjustment"), ("id", ofId id)]

def Adjustment.ofJson? (j : Json) : Option Adjustment := do
  match ← j.record? ["id", "order_id", "amount", "originator", "adjustable", "included", "label"] with
  | [id, order, amount, originator, adjustable, included, label] =>
    return {
      id := ← (← id).toId?
      order := ← (← order).toId?
      amount := ← (← amount).toDecimal?
      originator := ← Originator.ofJson? (← originator)
      adjustable := ← Adjustable.ofJson? (← adjustable)
      included := ← orElse toBool? false included
      label := ← orElse toString? "" label }
  | _ => none

def Adjustment.toJson (a : Adjustment) : Json :=
  .object [("id", ofId a.id), ("order_id", ofId a.order), ("amount", ofDecimal a.amount),
    ("originator", a.originator.toJson), ("adjustable", a.adjustable.toJson),
    ("included", .bool a.included), ("label", .string a.label)]

def Order.ofJson? (j : Json) : Option Order := do
  match ← j.record? ["id", "number", "distributor_id", "order_cycle_id", "completed_at", "line_items",
    "adjustments"] with
  | [id, number, distributor, cycle, completedAt, lineItems, adjustments] =>
    return {
      id := ← (← id).toId?
      number := ← orElse toString? "" number
      distributor := ← (← distributor).toId?
      cycle := ← (← cycle).toId?
      completedAt := ← orElse (toOption? toInstant?) none completedAt
      lineItems := ← orElse (toList? LineItem.ofJson?) [] lineItems
      adjustments := ← orElse (toList? Adjustment.ofJson?) [] adjustments }
  | _ => none

def Order.toJson (o : Order) : Json :=
  .object [("id", ofId o.id), ("number", .string o.number), ("distributor_id", ofId o.distributor),
    ("order_cycle_id", ofId o.cycle), ("completed_at", ofOption ofInstant o.completedAt),
    ("line_items", .array (o.lineItems.map LineItem.toJson)),
    ("adjustments", .array (o.adjustments.map Adjustment.toJson))]

namespace Dataset

def ofJson? (j : Json) : Option Dataset := do
  match ← j.record? ["enterprises", "order_cycles", "enterprise_fees", "tax_rates", "orders"] with
  | [enterprises, cycles, fees, taxRates, orders] =>
    return {
      enterprises := ← orElse (toList? Enterprise.ofJson?) [] enterprises
      cycles := ← orElse (toList? OrderCycle.ofJson?) [] cycles
      fees := ← orElse (toList? Fee.ofJson?) [] fees
      taxRates := ← orElse (toList? TaxRate.ofJson?) [] taxRates
      orders := ← orElse (toList? Order.ofJson?) [] orders }
  | _ => none

def toJson (d : Dataset) : Json :=
  .object [("enterprises", .array (d.enterprises.map Enterprise.toJson)),
    ("order_cycles", .array (d.cycles.map OrderCycle.toJson)),
    ("enterprise_fees", .array (d.fees.map Fee.toJson)),
    ("tax_rates", .array (d.taxRates.map TaxRate.toJson)),
    ("orders", .array (d.orders.map Order.toJson))]

/-- The dataset that a document holds, whether or not its adjustments name their orders. -/
def ofText? (text : String) : Option Dataset := do
  ofJson? (← Json.ofText? text)

def toText (d : Dataset) : String :=
  d.toJson.toText .compact

end Dataset

end MarketFees
