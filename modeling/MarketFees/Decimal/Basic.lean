import MarketFees.Power

namespace MarketFees

/-- The 96th power of two, which coefficients stay below. -/
def Decimal.coefficientBound : Nat :=
  79228162514264337593543950336

structure Decimal where
  negative : Bool
  coefficient : Nat
  scale : Nat
  coefficient_lt : coefficient < Decimal.coefficientBound
  scale_le : scale ≤ 28
  deriving DecidableEq, Repr

namespace Decimal

/-- The decimal of a sign, a coefficient and a scale, where they are in range. -/
def mk? (negative : Bool) (coefficient scale : Nat) : Option Decimal :=
  if h : coefficient < coefficientBound ∧ scale ≤ 28 then
    some ⟨negative, coefficient, scale, h.1, h.2⟩
  else
    none

/-- The decimal of so many units of a scale, where they are in range. Zero is not negative. -/
def ofUnits? (units : Int) (scale : Nat) : Option Decimal :=
  mk? (units < 0) units.natAbs scale

def ofInt? (n : Int) : Option Decimal :=
  ofUnits? n 0

instance : Zero Decimal :=
  ⟨⟨false, 0, 0, by decide, by decide⟩⟩

instance : Inhabited Decimal :=
  ⟨0⟩

instance : Neg Decimal :=
  ⟨fun a => { a with negative := !a.negative }⟩

/-- The units of its scale that a decimal counts, with its sign. -/
def units (a : Decimal) : Int :=
  if a.negative then -(a.coefficient : Int) else a.coefficient

/-- The number that a decimal stands for. -/
def toRat (a : Decimal) : Rat :=
  mkRat a.units (powerOfTen a.scale)

theorem mk?_self (a : Decimal) : mk? a.negative a.coefficient a.scale = some a :=
  dif_pos ⟨a.coefficient_lt, a.scale_le⟩

end Decimal

end MarketFees
