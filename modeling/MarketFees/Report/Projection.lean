import MarketFees.Report.Row
import MarketFees.Table

namespace MarketFees

/-- The definitions that have been read, and the ids that were found to have none. -/
structure Memo where
  enterprises : Table EnterpriseId (Option Enterprise)
  fees : Table FeeId (Option Fee)
  taxRates : Table TaxRateId (Option TaxRate)
  cycles : Table CycleId (Option OrderCycle)

instance : EmptyCollection Memo :=
  ⟨⟨∅, ∅, ∅, ∅⟩⟩

/-- Reading definitions with a memo. -/
abbrev Projection (α : Type) := ExceptT StoreError (StateM Memo) α

/-- The position of a row among the others. Ids follow the names they belong to, so that records with
equal names stay apart. -/
structure SortKey where
  distributorName : Option String
  distributor : EnterpriseId
  producerName : Option String
  supplier : EnterpriseId
  opensAt : Option Instant
  cycleName : Option String
  cycle : CycleId
  feeName : Option String
  fee : FeeId
  taxRateName : Option String
  taxRate : Option TaxRateId
  deriving DecidableEq, Repr

namespace SortKey

/-- Keys are ordered field by field. A missing value comes before every other. -/
def order : SortKey → SortKey → Ordering :=
  compareLex (compareOn distributorName) <| compareLex (compareOn distributor) <|
    compareLex (compareOn producerName) <| compareLex (compareOn supplier) <|
    compareLex (compareOn opensAt) <| compareLex (compareOn cycleName) <|
    compareLex (compareOn cycle) <| compareLex (compareOn feeName) <|
    compareLex (compareOn fee) <| compareLex (compareOn taxRateName) (compareOn taxRate)

instance : Ord SortKey :=
  ⟨order⟩

instance : Std.TransOrd SortKey :=
  inferInstanceAs (Std.TransCmp (compareLex _ (compareLex _ (compareLex _ (compareLex _
    (compareLex _ (compareLex _ (compareLex _ (compareLex _ (compareLex _ (compareLex _ _)))))))))))

instance : Std.LawfulEqOrd SortKey where
  compare_self := Std.ReflOrd.compare_self
  eq_of_compare {a b} h := by
    have h : order a b = .eq := h
    simp only [order, compareLex_eq_eq, compareOn, Std.LawfulEqOrd.compare_eq_iff_eq] at h
    cases a
    cases b
    simp_all

end SortKey

namespace Projection

/-- A definition by id, from the table of the memo for its kind or else as it is read. -/
def lookUp (known : Memo → Table (Id entity) (Option α)) (keep : Table (Id entity) (Option α) → Memo → Memo)
    (read : Id entity → Except StoreError (Option α)) (id : Id entity) : Projection (Option α) := do
  match (known (← get)).get? id with
  | some found => return found
  | none =>
    let found ← liftExcept (read id)
    modify fun memo => keep ((known memo).put id found) memo
    return found

variable (catalog : Catalog)

def enterprise : EnterpriseId → Projection (Option Enterprise) :=
  lookUp (·.enterprises) (fun enterprises memo => { memo with enterprises }) catalog.enterprise

def fee : FeeId → Projection (Option Fee) :=
  lookUp (·.fees) (fun fees memo => { memo with fees }) catalog.fee

def taxRate : TaxRateId → Projection (Option TaxRate) :=
  lookUp (·.taxRates) (fun taxRates memo => { memo with taxRates }) catalog.taxRate

def cycle : CycleId → Projection (Option OrderCycle) :=
  lookUp (·.cycles) (fun cycles memo => { memo with cycles }) catalog.cycle

/-- The columns of a key with these totals. -/
def columns (key : GroupKey) (totals : Totals) : Projection Columns := do
  let distributor ← enterprise catalog key.distributor
  let producer ← enterprise catalog key.supplier
  let cycle ← cycle catalog key.cycle
  let fee ← fee catalog key.fee
  let owner ← match fee with
    | some fee => enterprise catalog fee.owner
    | none => pure none
  let rate ← match key.taxRate with
    | some id => taxRate catalog id
    | none => pure none
  return {
    distributor := distributor.map (·.name)
    producer := producer.map (·.name)
    producerTaxStatus := producer.map (·.chargesSalesTax)
    cycle := cycle.map (·.name)
    feeName := fee.map (·.name)
    feeType := fee.map (·.feeType.name)
    feeOwner := owner.map (·.name)
    taxCategory := rate.bind (·.category)
    taxRateName := rate.map (·.name)
    taxRate := rate.map (·.amount)
    totals }

/-- The position of a key whose row has these columns. -/
def sortKey (key : GroupKey) (columns : Columns) : Projection SortKey := do
  let cycle ← cycle catalog key.cycle
  return {
    distributorName := columns.distributor
    distributor := key.distributor
    producerName := columns.producer
    supplier := key.supplier
    opensAt := cycle.bind (·.opensAt)
    cycleName := columns.cycle
    cycle := key.cycle
    feeName := columns.feeName
    fee := key.fee
    taxRateName := columns.taxRateName
    taxRate := key.taxRate }

end Projection

end MarketFees
