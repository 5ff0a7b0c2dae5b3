import MarketFees.Decimal.Basic
import MarketFees.Id
import MarketFees.SortedSet
import MarketFees.Time.Instant

namespace MarketFees

structure LineItem where
  id : LineItemId
  supplier : EnterpriseId
  deriving DecidableEq, Repr

inductive AdjustmentKind where
  | fee
  | tax
  deriving DecidableEq, Repr

def AdjustmentKind.name : AdjustmentKind → String
  | .fee => "enterprise_fee"
  | .tax => "tax"

/-- The definition that an adjustment comes from. -/
inductive Originator where
  | fee (id : FeeId)
  | taxRate (id : TaxRateId)
  deriving DecidableEq, Repr

namespace Originator

def kind : Originator → AdjustmentKind
  | .fee _ => .fee
  | .taxRate _ => .tax

def number : Originator → Int64
  | .fee id => id.value
  | .taxRate id => id.value

def fee? : Originator → Option FeeId
  | .fee id => some id
  | .taxRate _ => none

end Originator

/-- What an adjustment is charged on. -/
inductive Adjustable where
  | order (id : OrderId)
  | lineItem (id : LineItemId)
  | adjustment (id : AdjustmentId)
  deriving DecidableEq, Repr

namespace Adjustable

def number : Adjustable → Int64
  | .order id => id.value
  | .lineItem id => id.value
  | .adjustment id => id.value

end Adjustable

structure Adjustment where
  id : AdjustmentId
  order : OrderId
  amount : Decimal
  originator : Originator
  adjustable : Adjustable
  /-- Whether a tax is part of the price of what it is charged on already. -/
  included : Bool
  label : String
  deriving DecidableEq, Repr

def Adjustment.kind (a : Adjustment) : AdjustmentKind :=
  a.originator.kind

structure Order where
  id : OrderId
  number : String
  distributor : EnterpriseId
  cycle : CycleId
  /-- An order without this time is still in checkout. -/
  completedAt : Option Instant
  lineItems : List LineItem
  /-- All adjustments of the order, whatever they are charged on. -/
  adjustments : List Adjustment
  deriving DecidableEq, Repr

namespace Order

/-- The distinct suppliers of the line items. -/
def suppliers (order : Order) : SortedSet EnterpriseId :=
  .ofList (order.lineItems.map (·.supplier))

/-- The distinct fees that charge the order. -/
def fees (order : Order) : SortedSet FeeId :=
  .ofList (order.adjustments.filterMap (·.originator.fee?))

/-- The adjustments of one fee, in the order listed. -/
def feeAdjustments (order : Order) (fee : FeeId) : List AdjustmentId :=
  (order.adjustments.filter (·.originator = .fee fee)).map (·.id)

/-- The rate of a tax that is charged on one of these adjustments. -/
def rateOn? (charged : List AdjustmentId) (a : Adjustment) : Option TaxRateId :=
  match a.originator, a.adjustable with
  | .taxRate rate, .adjustment target => if target ∈ charged then some rate else none
  | _, _ => none

/-- The distinct rates of the taxes charged on any of these adjustments. -/
def taxRates (order : Order) (charged : List AdjustmentId) : SortedSet TaxRateId :=
  .ofList (order.adjustments.filterMap (rateOn? charged))

/-- The tax outcomes of these adjustments: every rate charged on them, or the one outcome that no tax
is charged. -/
def taxOutcomes (order : Order) (charged : List AdjustmentId) : List (Option TaxRateId) :=
  match (order.taxRates charged).toList with
  | [] => [none]
  | rates => rates.map some

end Order

end MarketFees
