import MarketFees.ChargeFilter
import MarketFees.Report.Hierarchy
import MarketFees.Report.Projection

namespace MarketFees.Report

structure Options where
  /-- Whether the report has summary rows. -/
  summaries : Bool
  deriving DecidableEq, Repr

instance : Inhabited Options :=
  ⟨⟨true⟩⟩

/-- The owner of a fee, where the catalog defines the fee. -/
def ownerOf (catalog : Catalog) (fee : FeeId) : Except StoreError (Option EnterpriseId) := do
  return (← catalog.fee fee).map (·.owner)

/-- The detail of a group and its position, and the memo afterwards. -/
def detail (amounts : AmountSource) (catalog : Catalog) (memo : Memo) (group : Group) :
    Except Fault ((SortKey × Detail) × Memo) := do
  let totals ← Totals.ofScope amounts group.scope
  let projection : Projection (SortKey × Detail) := do
    let columns ← Projection.columns catalog group.key totals
    return (← Projection.sortKey catalog group.key columns, ⟨group.key, group.scope, columns⟩)
  let (result, memo) := projection.run memo
  return (← result, memo)

/-- The details of groups in turn. -/
def detailsFrom (amounts : AmountSource) (catalog : Catalog) :
    Memo → List Group → Except Fault (List (SortKey × Detail))
  | _, [] => return []
  | memo, group :: rest => do
    let (first, memo) ← detail amounts catalog memo group
    return first :: (← detailsFrom amounts catalog memo rest)

/-- Sorts by position; of equal positions the first stays first. -/
def sortByKey (l : List (SortKey × α)) : List α :=
  (l.mergeSort fun a b => (compare a.1 b.1).isLE).map (·.2)

/-- The report on these orders, whether or not they pass the filters on orders. -/
def ofOrders (orders : List Order) (f : Filters) (amounts : AmountSource) (catalog : Catalog)
    (options : Options) : Except Fault Report := do
  if orders.isEmpty then
    return ∅
  let charges ← (Charge.retain f (ownerOf catalog) (Charge.ofOrders orders) : Except StoreError _)
  let details ← detailsFrom amounts catalog ∅ (Group.ofCharges charges)
  return ⟨← Detail.assemble amounts options.summaries (sortByKey details)⟩

/-- The report on the orders of a store that pass the filters and that the caller may see. -/
def run (store : Store) (f : Filters) (permission : Permission) (options : Options) :
    Except Fault Report := do
  ofOrders (← store.search f permission) f store.amounts store.catalog options

end MarketFees.Report
