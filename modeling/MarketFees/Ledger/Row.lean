import MarketFees.Fault
import MarketFees.Time.Reader
import MarketFees.Time.Text
import MarketFees.Decimal.Text

namespace MarketFees

/-- The content of a column of numbers: a 64-bit integer, or something that no record is read from. -/
inductive NumberCell where
  | integer (value : Int64)
  /-- A whole number in binary notation, which the least integer has too. -/
  | binary (value : Int)
  | other
  deriving DecidableEq, Repr

namespace NumberCell

def ofId (id : Id entity) : NumberCell :=
  .integer id.value

def ofBool (value : Bool) : NumberCell :=
  .integer (if value then 1 else 0)

/-- Whether a cell holds the number of an id, in either notation. -/
def names (cell : NumberCell) (id : Id entity) : Bool :=
  match cell with
  | .integer value => value == id.value
  | .binary value => value == id.toInt
  | .other => false

def read : NumberCell → Except StoreError Int64
  | .integer value => .ok value
  | _ => .error (.table .unreadableCell)

def readId (cell : NumberCell) : Except StoreError (Id entity) :=
  cell.read.map Id.mk

/-- Every number but zero is true. -/
def readBool (cell : NumberCell) : Except StoreError Bool :=
  cell.read.map (· != 0)

end NumberCell

/-- A stored timestamp, or none. -/
def readTimestamp : Option String → Except StoreError (Option Instant)
  | none => .ok none
  | some text => (Instant.ofStored? text).elim (.error (.table .unreadableCell)) (.ok ∘ some)

def readDecimal (column : TextColumn) (text : String) : Except StoreError Decimal :=
  (Decimal.ofText? text).elim (.error (.invalidDecimal column text)) .ok

structure EnterpriseRow where
  name : String
  chargesSalesTax : NumberCell
  deriving DecidableEq, Repr

def Enterprise.stored (e : Enterprise) : EnterpriseRow :=
  ⟨e.name, .ofBool e.chargesSalesTax⟩

def EnterpriseRow.read (id : EnterpriseId) (row : EnterpriseRow) : Except StoreError Enterprise := do
  return ⟨id, row.name, ← row.chargesSalesTax.readBool⟩

structure CycleRow where
  name : String
  opensAt : Option String
  deriving DecidableEq, Repr

def OrderCycle.stored (c : OrderCycle) : CycleRow :=
  ⟨c.name, c.opensAt.map (·.toStored)⟩

def CycleRow.read (id : CycleId) (row : CycleRow) : Except StoreError OrderCycle := do
  return ⟨id, row.name, ← readTimestamp row.opensAt⟩

structure FeeRow where
  name : String
  feeType : String
  owner : NumberCell
  deriving DecidableEq, Repr

def Fee.stored (f : Fee) : FeeRow :=
  ⟨f.name, f.feeType.name, .ofId f.owner⟩

def FeeRow.read (id : FeeId) (row : FeeRow) : Except StoreError Fee := do
  let owner ← row.owner.readId
  match FeeType.ofName? row.feeType with
  | some feeType => return ⟨id, row.name, feeType, owner⟩
  | none => .error (.invalidValue .feeType row.feeType)

structure TaxRateRow where
  name : String
  amount : String
  category : Option String
  deriving DecidableEq, Repr

def TaxRate.stored (r : TaxRate) : TaxRateRow :=
  ⟨r.name, r.amount.toText, r.category⟩

def TaxRateRow.read (id : TaxRateId) (row : TaxRateRow) : Except StoreError TaxRate := do
  return ⟨id, row.name, ← readDecimal .taxRateAmount row.amount, row.category⟩

/-- An order without its line items and adjustments. -/
structure OrderRow where
  number : String
  distributor : NumberCell
  cycle : NumberCell
  completedAt : Option String
  deriving DecidableEq, Repr

def Order.stored (o : Order) : OrderRow :=
  ⟨o.number, .ofId o.distributor, .ofId o.cycle, o.completedAt.map (·.toStored)⟩

def OrderRow.read (id : OrderId) (row : OrderRow) : Except StoreError Order := do
  return ⟨id, row.number, ← row.distributor.readId, ← row.cycle.readId,
    ← readTimestamp row.completedAt, [], []⟩

structure LineItemRow where
  order : NumberCell
  supplier : NumberCell
  deriving DecidableEq, Repr

def LineItem.stored (order : OrderId) (item : LineItem) : LineItemRow :=
  ⟨.ofId order, .ofId item.supplier⟩

/-- The line item and the order that it belongs to. -/
def LineItemRow.read (id : LineItemId) (row : LineItemRow) :
    Except StoreError (OrderId × LineItem) := do
  return (← row.order.readId, ⟨id, ← row.supplier.readId⟩)

structure AdjustmentRow where
  order : NumberCell
  amount : String
  originatorType : String
  originator : NumberCell
  adjustableType : String
  adjustable : NumberCell
  included : NumberCell
  label : String
  deriving DecidableEq, Repr

/-- How the kind of an adjustment is stored. -/
def AdjustmentKind.stored : AdjustmentKind → String
  | .fee => "enterprise_fee"
  | .tax => "tax_rate"

namespace Originator

def ofStored? (type : String) (number : Int64) : Option Originator :=
  match type with
  | "enterprise_fee" => some (.fee ⟨number⟩)
  | "tax_rate" => some (.taxRate ⟨number⟩)
  | _ => none

end Originator

namespace Adjustable

/-- How the type of what an adjustment is charged on is stored. -/
def stored : Adjustable → String
  | .order _ => "order"
  | .lineItem _ => "line_item"
  | .adjustment _ => "adjustment"

def ofStored? (type : String) (number : Int64) : Option Adjustable :=
  match type with
  | "order" => some (.order ⟨number⟩)
  | "line_item" => some (.lineItem ⟨number⟩)
  | "adjustment" => some (.adjustment ⟨number⟩)
  | _ => none

end Adjustable

def Adjustment.stored (order : OrderId) (a : Adjustment) : AdjustmentRow where
  order := .ofId order
  amount := a.amount.toText
  originatorType := a.kind.stored
  originator := .integer a.originator.number
  adjustableType := a.adjustable.stored
  adjustable := .integer a.adjustable.number
  included := .ofBool a.included
  label := a.label

/-- A row of the adjustments whose columns of numbers have been read. -/
structure AdjustmentCells where
  id : AdjustmentId
  order : OrderId
  amount : String
  originatorType : String
  originator : Int64
  adjustableType : String
  adjustable : Int64
  included : Bool
  label : String
  deriving DecidableEq, Repr

def AdjustmentRow.cells (id : AdjustmentId) (row : AdjustmentRow) :
    Except StoreError AdjustmentCells := do
  return {
    id
    order := ← row.order.readId
    amount := row.amount
    originatorType := row.originatorType
    originator := ← row.originator.read
    adjustableType := row.adjustableType
    adjustable := ← row.adjustable.read
    included := ← row.included.readBool
    label := row.label }

def AdjustmentCells.read (cells : AdjustmentCells) : Except StoreError Adjustment := do
  let some originator := Originator.ofStored? cells.originatorType cells.originator
    | .error (.invalidValue .originatorType cells.originatorType)
  let some adjustable := Adjustable.ofStored? cells.adjustableType cells.adjustable
    | .error (.invalidValue .adjustableType cells.adjustableType)
  let amount ← readDecimal .adjustmentAmount cells.amount
  return ⟨cells.id, cells.order, amount, originator, adjustable, cells.included, cells.label⟩

end MarketFees
