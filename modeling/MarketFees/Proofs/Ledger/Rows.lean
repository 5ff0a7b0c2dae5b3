import MarketFees.Ledger.Read
import MarketFees.Proofs.DecimalText
import MarketFees.Proofs.TimeText

namespace MarketFees

theorem NumberCell.read_integer (value : Int64) : (NumberCell.integer value).read = .ok value :=
  rfl

theorem NumberCell.readId_ofId (id : Id entity) : (NumberCell.ofId id).readId = .ok id :=
  rfl

theorem NumberCell.readBool_ofBool (value : Bool) : (NumberCell.ofBool value).readBool = .ok value := by
  cases value <;> rfl

theorem NumberCell.names_ofId {id other : Id entity} :
    (NumberCell.ofId id).names other = true ↔ id = other := by
  cases id
  cases other
  simp [NumberCell.names, NumberCell.ofId]

theorem NumberCell.ofBool_inj {a b : Bool} : NumberCell.ofBool a = NumberCell.ofBool b ↔ a = b := by
  cases a <;> cases b <;> decide

theorem readTimestamp_toStored (t : Option Instant) : readTimestamp (t.map (·.toStored)) = .ok t := by
  cases t with
  | none => rfl
  | some t => simp [readTimestamp, Instant.ofStored?_toStored]

theorem readDecimal_toText (column : TextColumn) (a : Decimal) :
    readDecimal column a.toText = .ok a.withoutZeroSign := by
  rw [readDecimal, Decimal.ofText?_toText]
  rfl

theorem Originator.ofStored?_stored (o : Originator) : ofStored? o.kind.stored o.number = some o := by
  cases o <;> rfl

theorem Adjustable.ofStored?_stored (a : Adjustable) : ofStored? a.stored a.number = some a := by
  cases a <;> rfl

theorem AdjustmentKind.stored_inj {a b : AdjustmentKind} : a.stored = b.stored ↔ a = b := by
  cases a <;> cases b <;> decide

theorem Enterprise.read_stored (e : Enterprise) : e.stored.read e.id = .ok e := by
  simp only [EnterpriseRow.read, Enterprise.stored, NumberCell.readBool_ofBool]
  rfl

theorem OrderCycle.read_stored (c : OrderCycle) : c.stored.read c.id = .ok c := by
  simp only [CycleRow.read, OrderCycle.stored, readTimestamp_toStored]
  rfl

theorem Fee.read_stored (f : Fee) : f.stored.read f.id = .ok f := by
  simp only [FeeRow.read, Fee.stored, NumberCell.readId_ofId, FeeType.ofName?_name]
  rfl

def TaxRate.asRead (r : TaxRate) : TaxRate :=
  { r with amount := r.amount.withoutZeroSign }

theorem TaxRate.read_stored (r : TaxRate) : r.stored.read r.id = .ok r.asRead := by
  simp only [TaxRateRow.read, TaxRate.stored, readDecimal_toText]
  rfl

/-- The order without its children, as it stands in its own row. -/
def Order.header (o : Order) : Order :=
  { o with lineItems := [], adjustments := [] }

theorem Order.read_stored (o : Order) : o.stored.read o.id = .ok o.header := by
  simp only [OrderRow.read, Order.stored, NumberCell.readId_ofId, readTimestamp_toStored]
  rfl

theorem LineItem.read_stored (order : OrderId) (item : LineItem) :
    (item.stored order).read item.id = .ok (order, item) :=
  rfl

def Adjustment.asRead (a : Adjustment) : Adjustment :=
  { a with amount := a.amount.withoutZeroSign }

def Order.asRead (o : Order) : Order :=
  { o with adjustments := o.adjustments.map Adjustment.asRead }

def Adjustment.cells (a : Adjustment) : AdjustmentCells :=
  ⟨a.id, a.order, a.amount.toText, a.kind.stored, a.originator.number, a.adjustable.stored,
    a.adjustable.number, a.included, a.label⟩

theorem Adjustment.cells_stored (a : Adjustment) : (a.stored a.order).cells a.id = .ok a.cells := by
  simp only [AdjustmentRow.cells, Adjustment.stored, NumberCell.readId_ofId, NumberCell.read_integer,
    NumberCell.readBool_ofBool]
  rfl

theorem Adjustment.read_cells (a : Adjustment) : a.cells.read = .ok a.asRead := by
  simp only [AdjustmentCells.read, Adjustment.cells, Adjustment.kind, Originator.ofStored?_stored,
    Adjustable.ofStored?_stored, readDecimal_toText]
  rfl

theorem Adjustment.read_row (order : OrderId) (a : Adjustment) :
    ((a.stored order).cells a.id >>= AdjustmentCells.read) = .ok { a.asRead with order } := by
  have hcells : (a.stored order).cells a.id = .ok { a with order }.cells :=
    Adjustment.cells_stored { a with order }
  rw [hcells]
  exact Adjustment.read_cells _

end MarketFees
