import MarketFees.Power
import MarketFees.Text.Digits

namespace MarketFees

/-- The kinds of record that carry an id. -/
inductive Entity where
  | order
  | lineItem
  | adjustment
  | enterprise
  | fee
  | taxRate
  | cycle
  deriving DecidableEq, Repr

/-- A 64-bit id of one kind of record. -/
structure Id (entity : Entity) where
  value : Int64
  deriving DecidableEq, Repr

abbrev OrderId := Id .order

abbrev LineItemId := Id .lineItem

abbrev AdjustmentId := Id .adjustment

abbrev EnterpriseId := Id .enterprise

abbrev FeeId := Id .fee

abbrev TaxRateId := Id .taxRate

abbrev CycleId := Id .cycle

namespace Id

variable {entity : Entity}

/-- The id with this number, if it fits 64 bits. -/
def ofInt? (n : Int) : Option (Id entity) :=
  (word? n).map mk

def toInt (id : Id entity) : Int :=
  id.value.toInt

def toText (id : Id entity) : String :=
  Text.ofInt id.toInt

instance : Ord (Id entity) :=
  ⟨compareOn value⟩

instance : Std.TransOrd (Id entity) where
  eq_swap {a b} := by
    change compare a.value b.value = (compare b.value a.value).swap
    exact Std.OrientedOrd.eq_swap
  isLE_trans {a b c} h₁ h₂ := by
    change (compare a.value c.value).isLE
    exact Std.TransCmp.isLE_trans (show (compare a.value b.value).isLE from h₁) h₂

instance : Std.LawfulEqOrd (Id entity) where
  compare_self {a} := by
    change compare a.value a.value = .eq
    exact Std.ReflOrd.compare_self
  eq_of_compare {a b} h := by
    have h : compare a.value b.value = .eq := h
    exact congrArg mk (Std.LawfulEqOrd.eq_of_compare h)

theorem ofInt?_toInt (id : Id entity) : ofInt? id.toInt = some id :=
  congrArg (Option.map mk) (word?_toInt id.value)

end Id

end MarketFees
