import MarketFees.Binary64
import MarketFees.Decimal.Text

namespace MarketFees.Json

/-- The number `digits / 10 ^ places * 10 ^ exponent` with its sign. -/
structure Number where
  negative : Bool
  digits : Nat
  places : Nat
  exponent : Option Int
  deriving DecidableEq, Repr

namespace Number

def ofInt (n : Int) : Number :=
  ⟨n < 0, n.natAbs, 0, none⟩

/-- The value of a number without fraction and exponent. A negative zero is no integer. -/
def toInt? (n : Number) : Option Int :=
  if n.places = 0 ∧ n.exponent = none ∧ ¬(n.negative ∧ n.digits = 0) then
    some (if n.negative then -(n.digits : Int) else n.digits)
  else
    none

def wholeDigits (n : Number) : List Char :=
  Nat.toDigits 10 (n.digits / powerOfTen n.places)

def fractionDigits (n : Number) : List Char :=
  if n.places = 0 then [] else Text.padded n.places (n.digits % powerOfTen n.places)

/-- Puts digits behind a significand up to the first that would take it out of 64 bits, and counts the
ones that are left. -/
def absorb (significand : Nat) : List Char → Nat × Nat
  | [] => (significand, 0)
  | digit :: rest =>
    let next := 10 * significand + Text.digitsValue [digit]
    if next < UInt64.size then absorb next rest else (significand, rest.length + 1)

/-- A significand of 64 bits and its power of ten. The digits before and after the point are taken up
one after the other: ones before it that do not fit count as zeros, and the ones after it are then
put behind the ones that did. -/
def scaled (n : Number) : Nat × Int :=
  let (significand, left) := absorb 0 n.wholeDigits
  let (significand, dropped) := absorb significand n.fractionDigits
  (significand, n.exponent.getD 0 + left - (n.places - dropped : Nat))

/-- The size as a binary number: the significand, rounded, times or through a power of ten, rounded
again. Nothing stands for a size that is out of range. -/
def toBinary64? (n : Number) : Option Binary64 := do
  let (significand, shift) := n.scaled
  let size ← Binary64.ofQuotient? significand 1
  if size.mantissa = 0 ∨ shift < -616 then
    return Binary64.zero
  else if 308 < shift then
    none
  else if 0 ≤ shift then
    size.mul? (← Binary64.ofPowerOfTen? shift.toNat)
  else if -308 ≤ shift then
    size.div? (← Binary64.ofPowerOfTen? (-shift).toNat)
  else
    (← size.div? (← Binary64.ofPowerOfTen? 308)).div? (← Binary64.ofPowerOfTen? (-shift - 308).toNat)

/-- The amount that a number stands for. -/
def toDecimal? (n : Number) : Option Decimal :=
  match n.toInt?.filter fun i => Int64.minValue.toInt ≤ i ∧ i < UInt64.size with
  | some i => Decimal.ofInt? i
  | none => do
    let digits := (← n.toBinary64?).shortest.chars
    Decimal.ofChars? (if n.negative then '-' :: digits else digits)

/-- The number as it is spelled, with the fewest characters. -/
def chars (n : Number) : List Char :=
  let digits := Text.padded (n.places + 1) n.digits
  let whole := digits.length - n.places
  let plain := digits.take whole ++ if n.places = 0 then [] else '.' :: digits.drop whole
  let sign := if n.negative then ['-'] else []
  let power := match n.exponent with
    | none => []
    | some e => 'e' :: Text.intChars e
  sign ++ plain ++ power

end Number

end MarketFees.Json
