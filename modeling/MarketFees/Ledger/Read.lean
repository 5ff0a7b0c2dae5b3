import MarketFees.Ledger.Basic
import MarketFees.Store

namespace MarketFees

/-- The parts of a list of the given size, the last one of what is left. -/
def portions (size : Nat) (l : List α) : List (List α) :=
  go l.length l
where
  go : Nat → List α → List (List α)
    | _, [] => []
    | 0, l => [l]
    | fuel + 1, l => l.take size :: go fuel (l.drop size)

namespace Ledger

/-- The largest number of ids that are looked for at a time. -/
def portionSize : Nat :=
  500

/-- Whether rows that are looked for by ids include the row of a cell. Without ids no row is left out. -/
def finds (ids : List (Id entity)) (cell : NumberCell) : Bool :=
  ids.isEmpty || ids.any cell.names

/-- Whether a short list of ids admits a cell. A longer list is left to the filters. -/
def admits (ids : List (Id entity)) (cell : NumberCell) : Bool :=
  portionSize < ids.length || finds ids cell

/-- The complete orders that short lists of the filters admit, without their children. -/
def headers (l : Ledger) (f : Filters) : Except StoreError (List Order) :=
  let rows := l.orders.entries.filter fun (_, row) =>
    row.completedAt.isSome && admits f.distributors row.distributor && admits f.cycles row.cycle
  rows.mapM fun (id, row) => row.read id

/-- The orders of a portion with their line items and adjustments, each by id. -/
def withChildren (l : Ledger) (orders : List Order) : Except StoreError (List Order) := do
  let ids := orders.map (·.id)
  let itemRows := l.lineItems.entries.filter fun (_, row) => finds ids row.order
  let items ← itemRows.mapM fun (id, row) => row.read id
  let adjustmentRows := l.adjustments.entries.filter fun (_, row) => finds ids row.order
  let cells ← adjustmentRows.mapM fun (id, row) => row.cells id
  let adjustments ← cells.mapM (·.read)
  return orders.map fun order =>
    { order with
      lineItems := (items.filter (·.1 = order.id)).map (·.2)
      adjustments := adjustments.filter (·.order = order.id) }

/-- The orders that pass the filters and that the caller may see. Who may see an order is asked when
the order has been read with its children. -/
def search (l : Ledger) (f : Filters) (permission : Permission) : Except StoreError (List Order) := do
  let headers ← l.headers f
  let parts ← (portions portionSize (headers.filter f.matchesOrder)).mapM l.withChildren
  return parts.flatten.filter permission

/-- The adjustments that have the kind and the flag of a query, by id. -/
def ofKind (l : Ledger) (q : AmountQuery) : List (AdjustmentId × AdjustmentRow) :=
  l.adjustments.entries.filter fun (_, row) =>
    row.originatorType == q.kind.stored && q.included.all (row.included = .ofBool ·)

/-- Those of them that are looked for by orders, by order and then by id. Without orders none is left
out, and they come by id. -/
def candidates (l : Ledger) (q : AmountQuery) (orders : List OrderId) :
    List (AdjustmentId × AdjustmentRow) :=
  if orders.isEmpty then l.ofKind q
  else orders.flatMap fun order => (l.ofKind q).filter fun (_, row) => row.order.names order

/-- What a query looks at in a row: the numbers of its originator and adjustable. -/
structure Candidate where
  id : AdjustmentId
  amount : String
  originator : Int64
  adjustableType : String
  adjustable : Int64

def candidate (id : AdjustmentId) (row : AdjustmentRow) : Except StoreError Candidate := do
  return ⟨id, row.amount, ← row.originator.read, row.adjustableType, ← row.adjustable.read⟩

/-- Whether the restrictions of a query admit a candidate. -/
def Candidate.passes (q : AmountQuery) (c : Candidate) : Bool :=
  q.admitsOriginator c.originator &&
    q.adjustables.all fun ids => c.adjustableType == "adjustment" && ⟨c.adjustable⟩ ∈ ids

def Candidate.read (c : Candidate) : Except StoreError (AdjustmentId × Decimal) := do
  return (c.id, ← readDecimal .adjustmentAmount c.amount)

/-- The selected adjustments of a portion of orders. Only selected amounts are read. -/
def selectPortion (l : Ledger) (q : AmountQuery) (orders : List OrderId) :
    Except StoreError (List (AdjustmentId × Decimal)) := do
  let candidates ← (l.candidates q orders).mapM fun (id, row) => candidate id row
  (candidates.filter (·.passes q)).mapM (·.read)

/-- The ids and amounts of the adjustments that a query selects, by order and then by id. -/
def select (l : Ledger) (q : AmountQuery) : Except StoreError (List (AdjustmentId × Decimal)) := do
  if q.isEmpty then
    return []
  let parts ← (portions portionSize q.orders.toList).mapM (l.selectPortion q)
  return parts.flatten

def store (l : Ledger) : Store where
  search := l.search
  amounts := {
    amountSum q := do Decimal.sum ((← l.select q).map (·.2))
    adjustmentIds q := do return .ofList ((← l.select q).map (·.1)) }
  catalog := {
    enterprise id := (l.enterprises.get? id).mapM (·.read id)
    fee id := (l.fees.get? id).mapM (·.read id)
    taxRate id := (l.taxRates.get? id).mapM (·.read id)
    cycle id := (l.cycles.get? id).mapM (·.read id) }

end Ledger

end MarketFees
