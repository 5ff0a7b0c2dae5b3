import MarketFees.Decimal.Basic
import MarketFees.Id
import MarketFees.Time.Instant

namespace MarketFees

/-- A distributor, a producer or the owner of a fee. -/
structure Enterprise where
  id : EnterpriseId
  name : String
  chargesSalesTax : Bool
  deriving DecidableEq, Repr

inductive FeeType where
  | admin
  | packing
  | transport
  | fundraising
  | sales
  deriving DecidableEq, Repr

namespace FeeType

def name : FeeType → String
  | .admin => "admin"
  | .packing => "packing"
  | .transport => "transport"
  | .fundraising => "fundraising"
  | .sales => "sales"

def all : List FeeType :=
  [.admin, .packing, .transport, .fundraising, .sales]

def ofName? (text : String) : Option FeeType :=
  all.find? (·.name == text)

/-- What is said of a text that names no type. -/
def unknownMessage (text : String) : String :=
  "unknown fee type: " ++ text

theorem ofName?_name (type : FeeType) : ofName? type.name = some type := by
  cases type <;> rfl

end FeeType

/-- A fee that its owner charges on orders. -/
structure Fee where
  id : FeeId
  name : String
  feeType : FeeType
  owner : EnterpriseId
  deriving DecidableEq, Repr

/-- A tax rate as a fraction, so that a tenth is ten percent. -/
structure TaxRate where
  id : TaxRateId
  name : String
  amount : Decimal
  category : Option String
  deriving DecidableEq, Repr

structure OrderCycle where
  id : CycleId
  name : String
  opensAt : Option Instant
  deriving DecidableEq, Repr

end MarketFees
