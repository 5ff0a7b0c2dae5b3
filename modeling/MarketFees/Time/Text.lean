import MarketFees.Text.Digits
import MarketFees.Time.Instant

namespace MarketFees

open Text

def Date.chars (date : Date) : List Char :=
  let year :=
    if 0 ≤ date.year ∧ date.year ≤ 9999 then padded 4 date.year.natAbs
    else (if date.year < 0 then '-' else '+') :: padded 4 date.year.natAbs
  year ++ '-' :: padded 2 date.month ++ '-' :: padded 2 date.day

def fractionChars (nanos : Nat) : List Char :=
  if nanos = 0 then []
  else if nanos % 1000000 = 0 then '.' :: padded 3 (nanos / 1000000)
  else if nanos % 1000 = 0 then '.' :: padded 6 (nanos / 1000)
  else '.' :: padded 9 nanos

def Clock.chars (clock : Clock) : List Char :=
  padded 2 clock.hour ++ ':' :: padded 2 clock.minute ++ ':' :: padded 2 clock.second ++
    fractionChars clock.nanos

namespace Instant

/-- The instant in a document. -/
def toDocument (t : Instant) : String :=
  String.ofList (t.date.chars ++ 'T' :: t.clock.chars ++ ['Z'])

/-- The instant in a ledger. -/
def toStored (t : Instant) : String :=
  String.ofList (t.date.chars ++ ' ' :: t.clock.chars ++ ['+', '0', '0', ':', '0', '0'])

end Instant

end MarketFees
