import MarketFees.Charge

namespace MarketFees

/-- What the charges of one row have in common. -/
structure GroupKey where
  taxRate : Option TaxRateId
  fee : FeeId
  supplier : EnterpriseId
  distributor : EnterpriseId
  cycle : CycleId
  deriving DecidableEq, Repr

/-- Keys are ordered field by field, a missing rate before every rate. -/
def GroupKey.order : GroupKey → GroupKey → Ordering :=
  compareLex (compareOn taxRate) <| compareLex (compareOn fee) <| compareLex (compareOn supplier) <|
    compareLex (compareOn distributor) (compareOn cycle)

instance : Ord GroupKey :=
  ⟨GroupKey.order⟩

instance : Std.TransOrd GroupKey :=
  inferInstanceAs (Std.TransCmp (compareLex _ (compareLex _ (compareLex _ (compareLex _ _)))))

instance : Std.LawfulEqOrd GroupKey where
  compare_self := Std.ReflOrd.compare_self
  eq_of_compare {a b} h := by
    have h : GroupKey.order a b = .eq := h
    simp only [GroupKey.order, compareLex_eq_eq] at h
    obtain ⟨h₁, h₂, h₃, h₄, h₅⟩ := h
    have h₁ : a.taxRate = b.taxRate := Std.LawfulEqOrd.eq_of_compare h₁
    have h₂ : a.fee = b.fee := Std.LawfulEqOrd.eq_of_compare h₂
    have h₃ : a.supplier = b.supplier := Std.LawfulEqOrd.eq_of_compare h₃
    have h₄ : a.distributor = b.distributor := Std.LawfulEqOrd.eq_of_compare h₄
    have h₅ : a.cycle = b.cycle := Std.LawfulEqOrd.eq_of_compare h₅
    cases a
    cases b
    simp_all

def Charge.key (c : Charge) : GroupKey :=
  ⟨c.taxRate, c.fee, c.supplier, c.order.distributor, c.order.cycle⟩

/-- The orders, fees and tax rates that totals are taken over. Without rates only the amounts without
tax are of interest. -/
structure Scope where
  orders : SortedSet OrderId
  fees : SortedSet FeeId
  taxRates : SortedSet TaxRateId
  deriving DecidableEq

namespace Scope

instance : EmptyCollection Scope :=
  ⟨⟨∅, ∅, ∅⟩⟩

instance : Union Scope :=
  ⟨fun a b => ⟨a.orders ∪ b.orders, a.fees ∪ b.fees, a.taxRates ∪ b.taxRates⟩⟩

def unionAll (scopes : List Scope) : Scope :=
  scopes.foldr (· ∪ ·) ∅

end Scope

structure Group where
  key : GroupKey
  /-- The order of every charge, so that an order may be repeated. -/
  orders : List Order
  deriving DecidableEq, Repr

namespace Group

/-- The charges by key, in the order of the keys. -/
def ofCharges (charges : List Charge) : List Group :=
  (SortedSet.ofList (charges.map (·.key))).toList.map fun key =>
    ⟨key, (charges.filter (·.key = key)).map (·.order)⟩

def scope (g : Group) : Scope where
  orders := .ofList (g.orders.map (·.id))
  fees := .ofList [g.key.fee]
  taxRates := .ofList g.key.taxRate.toList

end Group

end MarketFees
