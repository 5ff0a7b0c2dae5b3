import MarketFees.Ledger.Row
import MarketFees.Table

namespace MarketFees

structure Ledger where
  /-- The version of the tables, in its stored form; a ledger that was never opened has none. -/
  version : Option String
  enterprises : Table EnterpriseId EnterpriseRow
  cycles : Table CycleId CycleRow
  fees : Table FeeId FeeRow
  taxRates : Table TaxRateId TaxRateRow
  orders : Table OrderId OrderRow
  lineItems : Table LineItemId LineItemRow
  adjustments : Table AdjustmentId AdjustmentRow
  deriving DecidableEq

namespace Ledger

instance : EmptyCollection Ledger :=
  ⟨⟨none, ∅, ∅, ∅, ∅, ∅, ∅, ∅⟩⟩

/-- A stored version is a 32-bit number. -/
def readVersion? (text : String) : Option Int :=
  (Text.int? text.toList).filter fun n => (Int32.ofInt n).toInt = n

/-- Opens a ledger: checks its version, or sets it where the ledger is new. -/
def opened (l : Ledger) : Except StoreError Ledger :=
  match l.version with
  | none => .ok { l with version := some (Text.ofInt schemaVersion) }
  | some text =>
    match readVersion? text with
    | none => .error (.invalidValue .version text)
    | some found => if found = schemaVersion then .ok l else .error (.schemaVersion found)

/-- A new ledger, opened. -/
def new : Ledger :=
  { (∅ : Ledger) with version := some (Text.ofInt schemaVersion) }

/-- Stores an order in place of the one with its id: the header, and then the line items and
adjustments, which leave none of the ones that the order had. A child of another order with the same
id is replaced too. -/
def putOrder (l : Ledger) (order : Order) : Ledger :=
  { l with
    orders := l.orders.put order.id order.stored
    lineItems := order.lineItems.foldl (fun t item => t.put item.id (item.stored order.id))
      (l.lineItems.filter fun _ row => !row.order.names order.id)
    adjustments := order.adjustments.foldl (fun t a => t.put a.id (a.stored order.id))
      (l.adjustments.filter fun _ row => !row.order.names order.id) }

/-- Stores everything in a dataset, record by record. -/
def putAll (l : Ledger) (d : Dataset) : Ledger :=
  let l := { l with
    enterprises := d.enterprises.foldl (fun t e => t.put e.id e.stored) l.enterprises
    cycles := d.cycles.foldl (fun t c => t.put c.id c.stored) l.cycles
    fees := d.fees.foldl (fun t f => t.put f.id f.stored) l.fees
    taxRates := d.taxRates.foldl (fun t r => t.put r.id r.stored) l.taxRates }
  d.orders.foldl putOrder l

/-- Stores a dataset whose adjustments name their orders, and nothing of any other. -/
def load (l : Ledger) (d : Dataset) : Except StoreError Ledger := do
  d.validate
  return l.putAll d

end Ledger

end MarketFees
