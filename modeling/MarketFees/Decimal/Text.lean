import MarketFees.Decimal.Basic
import MarketFees.Text.Digits

namespace MarketFees.Decimal

open Text

def chars (a : Decimal) : List Char :=
  let digits := padded (a.scale + 1) a.coefficient
  let whole := digits.length - a.scale
  let unsigned := digits.take whole ++ if a.scale = 0 then [] else '.' :: digits.drop whole
  if a.negative then '-' :: unsigned else unsigned

def toText (a : Decimal) : String :=
  String.ofList a.chars

/-- A coefficient and a scale without a sign. -/
structure Magnitude where
  coefficient : Nat
  scale : Nat

namespace Magnitude

/-- Takes up digits after the point for as long as coefficient and scale stay in range, and returns
the characters that are left. -/
def absorb (m : Magnitude) : List Char → Magnitude × List Char
  | [] => (m, [])
  | c :: rest =>
    let next := 10 * m.coefficient + digitsValue [c]
    if m.scale = 28 then (m, c :: rest)
    else if c = '_' then absorb m rest
    else if next < coefficientBound then absorb ⟨next, m.scale + 1⟩ rest
    else (m, c :: rest)

/-- Rounds by the first character that was left: five and more rounds up, and a separator counts as
zero. A coefficient that leaves its range by this gives up its last digit, rounded in turn. -/
def roundBy? (m : Magnitude) : List Char → Option Magnitude
  | [] => some m
  | c :: _ =>
    if c = '_' ∨ digitsValue [c] < 5 then some m
    else if m.coefficient + 1 < coefficientBound then some ⟨m.coefficient + 1, m.scale⟩
    else if m.scale = 0 then none
    else some ⟨(m.coefficient + 5) / 10, m.scale - 1⟩

/-- The decimal with this sign, which zero does not take. -/
def toDecimal? (negative : Bool) (m : Magnitude) : Option Decimal :=
  mk? (negative && m.coefficient != 0) m.coefficient m.scale

end Magnitude

def isDigitOrSeparator (c : Char) : Bool :=
  c.isDigit || c == '_'

/-- Reads digits with at most one point among them. Separators may stand after the first digit. -/
def ofPlain? (text : List Char) : Option Decimal := do
  let (negative, body) := splitSign text
  let whole := body.takeWhile isDigitOrSeparator
  let fraction ← match body.dropWhile isDigitOrSeparator with
    | [] => some []
    | '.' :: rest => some rest
    | _ => none
  guard (fraction.all isDigitOrSeparator)
  guard ((whole ++ fraction).head?.any Char.isDigit)
  let coefficient := digitsValue (whole.filter Char.isDigit)
  guard (coefficient < coefficientBound)
  let (magnitude, left) := Magnitude.absorb ⟨coefficient, 0⟩ fraction
  (← magnitude.roundBy? left).toDecimal? negative

/-- The exponent is a number of at most 28, after an optional plus sign. -/
def exponent? (text : List Char) : Option Nat := do
  let digits := match text with
    | '+' :: rest => rest
    | rest => rest
  let n ← nat? digits
  guard (n ≤ 28)
  return n

/-- Drops digits after the point until `scale` of them are left. The first dropped digit rounds, five
and more away from zero. The sign stays, also where zero is left. -/
def truncateTo (a : Decimal) (scale : Nat) : Option Decimal :=
  let unit := powerOfTen (a.scale - scale)
  mk? a.negative ((2 * a.coefficient + unit) / (2 * unit)) scale

/-- An amount through the `n`th power of ten, rounded first where the scale would pass 28. -/
def shiftDown? (a : Decimal) (n : Nat) : Option Decimal := do
  if a.scale + n ≤ 28 then
    mk? a.negative a.coefficient (a.scale + n)
  else
    let rounded ← a.truncateTo (28 - n)
    mk? rounded.negative rounded.coefficient 28

/-- An amount times the `n`th power of ten, with the point moved where the scale allows it. -/
def shiftUp? (a : Decimal) (n : Nat) : Option Decimal :=
  if n ≤ a.scale then mk? a.negative a.coefficient (a.scale - n)
  else mk? a.negative (a.coefficient * powerOfTen (n - a.scale)) 0

def isExponentMark (c : Char) : Bool :=
  c == 'e' || c == 'E'

/-- Reads a plain number, the letter `e` and a power of ten. Both signs may stand before the power, the
minus first. -/
def ofScientific? (text : List Char) : Option Decimal := do
  let base ← ofPlain? (text.takeWhile (!isExponentMark ·))
  match text.dropWhile (!isExponentMark ·) with
  | _ :: '-' :: exponent => base.shiftDown? (← exponent? exponent)
  | _ :: exponent => base.shiftUp? (← exponent? exponent)
  | [] => none

def ofChars? (text : List Char) : Option Decimal :=
  ofPlain? text <|> ofScientific? text

def ofText? (text : String) : Option Decimal :=
  ofChars? text.toList

end MarketFees.Decimal
