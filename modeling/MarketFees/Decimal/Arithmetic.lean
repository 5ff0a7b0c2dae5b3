import MarketFees.Decimal.Basic

namespace MarketFees

/-- The integer nearest to `n / d`, of two the even one. -/
def roundHalfEven (n : Int) (d : Nat) : Int :=
  let quotient := n / d
  let remainder := n % d
  if 2 * remainder < d ∨ 2 * remainder = d ∧ quotient % 2 = 0 then quotient else quotient + 1

namespace Decimal

/-- The value of `n` units of `scale`, at the largest scale up to the given one that holds it. -/
def fit? (n : Int) (scale : Nat) : Option Decimal :=
  (List.range (scale + 1)).findSome? fun dropped =>
    ofUnits? (roundHalfEven n (powerOfTen dropped)) (scale - dropped)

/-- The units that `a` counts at a scale not below its own. -/
def unitsAt (a : Decimal) (scale : Nat) : Int :=
  a.units * powerOfTen (scale - a.scale)

/-- The sum, and nothing on overflow. A zero operand leaves the other as it is, with its scale and
sign. -/
def add? (a b : Decimal) : Option Decimal :=
  if a.coefficient = 0 then some b
  else if b.coefficient = 0 then some a
  else
    let scale := max a.scale b.scale
    fit? (a.unitsAt scale + b.unitsAt scale) scale

/-- The difference, and nothing on overflow. A zero keeps its sign when it is taken away. -/
def sub? (a b : Decimal) : Option Decimal :=
  if b.coefficient = 0 then add? a b else add? a (-b)

/-- The sum from left to right, starting at zero. -/
def sum? (amounts : List Decimal) : Option Decimal :=
  amounts.foldlM add? 0

end Decimal

end MarketFees
