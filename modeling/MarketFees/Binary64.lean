import MarketFees.Power
import MarketFees.Text.Digits

namespace MarketFees

/-- The number `mantissa * 2 ^ exponent`. The mantissa has 53 bits, or fewer at the least exponent,
which is -1074. -/
structure Binary64 where
  mantissa : Nat
  exponent : Int
  deriving DecidableEq, Repr

namespace Binary64

def zero : Binary64 :=
  ⟨0, -1074⟩

/-- The nearest integer to `n / d`, of two the even one. -/
def nearestEven (n d : Nat) : Nat :=
  let quotient := n / d
  let twice := 2 * (n % d)
  if twice < d ∨ twice = d ∧ quotient % 2 = 0 then quotient else quotient + 1

/-- The quotient `n / (d * 2 ^ exponent)` as numerator and denominator. -/
def scaled (n d : Nat) (exponent : Int) : Nat × Nat :=
  (n * powerOfTwo (-exponent).toNat, d * powerOfTwo exponent.toNat)

/-- The least exponent from -1074 on at which `n / d` takes at most 53 bits before the point. -/
def exponentOf (n d : Nat) : Int :=
  let estimate := max ((n.log2 : Int) - d.log2 - 53) (-1074)
  let (num, den) := scaled n d estimate
  if num < den * powerOfTwo 53 then estimate else estimate + 1

/-- The number nearest to `n / d`, and nothing where that is too large. -/
def ofQuotient? (n d : Nat) : Option Binary64 :=
  if n = 0 then some zero else
  let exponent := exponentOf n d
  let (num, den) := scaled n d exponent
  let mantissa := nearestEven num den
  let (mantissa, exponent) :=
    if mantissa = powerOfTwo 53 then (powerOfTwo 52, exponent + 1) else (mantissa, exponent)
  if exponent ≤ 971 then some ⟨mantissa, exponent⟩ else none

/-- The value as numerator and denominator. -/
def quotient (x : Binary64) : Nat × Nat :=
  (x.mantissa * powerOfTwo x.exponent.toNat, powerOfTwo (-x.exponent).toNat)

def mul? (x y : Binary64) : Option Binary64 :=
  ofQuotient? (x.quotient.1 * y.quotient.1) (x.quotient.2 * y.quotient.2)

def div? (x y : Binary64) : Option Binary64 :=
  ofQuotient? (x.quotient.1 * y.quotient.2) (x.quotient.2 * y.quotient.1)

/-- The number nearest to a power of ten. -/
def ofPowerOfTen? (n : Nat) : Option Binary64 :=
  ofQuotient? (powerOfTen n) 1

/-- Decimal digits `digits * 10 ^ exponent`. -/
structure Digits where
  digits : Nat
  exponent : Int
  deriving DecidableEq, Repr

/-- Four times the value, and four times the bounds of what rounds to it, over one denominator. -/
structure Interval where
  low : Nat
  middle : Nat
  high : Nat
  denominator : Nat
  closed : Bool

def interval (x : Binary64) : Interval :=
  let unit := powerOfTwo x.exponent.toNat
  let below := if x.mantissa = powerOfTwo 52 ∧ -1074 < x.exponent then 1 else 2
  { low := (4 * x.mantissa - below) * unit
    middle := 4 * x.mantissa * unit
    high := (4 * x.mantissa + 2) * unit
    denominator := 4 * powerOfTwo (-x.exponent).toNat
    closed := x.mantissa % 2 = 0 }

/-- The digits at one decimal exponent that lie in the interval: the nearer of two, and the larger of
two that are equally near. -/
def Interval.digitsAt? (i : Interval) (exponent : Int) : Option Digits :=
  let up := powerOfTen (-exponent).toNat
  let unit := i.denominator * powerOfTen exponent.toNat
  let inside (n : Nat) : Bool :=
    if i.closed then i.low * up ≤ n * unit ∧ n * unit ≤ i.high * up
    else i.low * up < n * unit ∧ n * unit < i.high * up
  let below := i.middle * up / unit
  let above := below + 1
  let candidate :=
    if inside below ∧ inside above then
      if 2 * (i.middle * up) < (below + above) * unit then some below else some above
    else if inside below then some below
    else if inside above then some above
    else none
  candidate.map (⟨·, exponent⟩)

/-- The fewest digits that read back as the number. -/
def shortest (x : Binary64) : Digits :=
  if x.mantissa = 0 then ⟨0, 0⟩
  else
    ((List.range 634).findSome? fun i : Nat => x.interval.digitsAt? (309 - i)).getD ⟨0, 0⟩

/-- The digits written out without an exponent. -/
def Digits.chars (d : Digits) : List Char :=
  if 0 ≤ d.exponent then Nat.toDigits 10 (d.digits * powerOfTen d.exponent.toNat)
  else
    let places := (-d.exponent).toNat
    let digits := Text.padded (places + 1) d.digits
    let whole := digits.length - places
    digits.take whole ++ '.' :: digits.drop whole

end Binary64

end MarketFees
