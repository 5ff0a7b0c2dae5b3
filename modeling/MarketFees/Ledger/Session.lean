import MarketFees.Ledger.Read
import MarketFees.Report.Build

namespace MarketFees.Ledger

/-- What can be read of a ledger. -/
inductive Read where
  | search (f : Filters) (permission : Permission)
  | amountSum (q : AmountQuery)
  | adjustmentIds (q : AmountQuery)
  | enterprise (id : EnterpriseId)
  | fee (id : FeeId)
  | taxRate (id : TaxRateId)
  | cycle (id : CycleId)
  | report (f : Filters) (permission : Permission) (options : Report.Options)

inductive Request where
  | load (d : Dataset)
  | reopen
  | read (r : Read)

inductive Answer where
  | done
  | orders (found : List Order)
  | amount (sum : Decimal)
  | adjustmentIds (ids : SortedSet AdjustmentId)
  | enterprise (found : Option Enterprise)
  | fee (found : Option Fee)
  | taxRate (found : Option TaxRate)
  | cycle (found : Option OrderCycle)
  | report (report : Report)

def read (l : Ledger) : Read → Except Fault Answer
  | .search f permission => do return .orders (← l.store.search f permission)
  | .amountSum q => do return .amount (← l.store.amounts.amountSum q)
  | .adjustmentIds q => do return .adjustmentIds (← l.store.amounts.adjustmentIds q)
  | .enterprise id => do return .enterprise (← l.store.catalog.enterprise id)
  | .fee id => do return .fee (← l.store.catalog.fee id)
  | .taxRate id => do return .taxRate (← l.store.catalog.taxRate id)
  | .cycle id => do return .cycle (← l.store.catalog.cycle id)
  | .report f permission options => do return .report (← Report.run l.store f permission options)

/-- The answer to a request and the ledger with what the request changes. -/
def answer (l : Ledger) : Request → Except Fault (Answer × Ledger)
  | .load d => do return (.done, ← l.load d)
  | .reopen => do return (.done, ← l.opened)
  | .read r => do return (← l.read r, l)

/-- What comes of a request, and the ledger that the next request meets. -/
def respond (l : Ledger) (r : Request) : Except Fault Answer × Ledger :=
  match l.answer r with
  | .ok (answer, l) => (.ok answer, l)
  | .error fault => (.error fault, l)

/-- The ledger after requests in turn. -/
def after (l : Ledger) (requests : List Request) : Ledger :=
  requests.foldl (fun l r => (l.respond r).2) l

end MarketFees.Ledger
