import MarketFees.Time.Calendar

namespace MarketFees

def firstYear : Int :=
  -262143

def lastYear : Int :=
  262142

def daySeconds : Int :=
  86400

/-- Seconds since the start of 1970 and nanoseconds that make an instant: the year is in range, and
only the last second of a minute can be a leap second. -/
def IsInstant (seconds : Int) (nanos : Nat) : Prop :=
  (nanos < 1000000000 ∨ nanos < 2000000000 ∧ seconds % 60 = 59) ∧
    firstYear ≤ (Date.ofDayNumber (seconds / daySeconds)).year ∧
    (Date.ofDayNumber (seconds / daySeconds)).year ≤ lastYear

instance (seconds : Int) (nanos : Nat) : Decidable (IsInstant seconds nanos) :=
  inferInstanceAs (Decidable ((_ ∨ _ ∧ _) ∧ _ ∧ _))

structure Instant where
  seconds : Int
  nanos : Nat
  isInstant : IsInstant seconds nanos
  deriving DecidableEq, Repr

/-- A time of day; the second 60 is a leap second. -/
structure Clock where
  hour : Nat
  minute : Nat
  second : Nat
  nanos : Nat
  deriving DecidableEq, Repr

namespace Clock

def IsValid (clock : Clock) : Prop :=
  clock.hour < 24 ∧ clock.minute < 60 ∧ clock.second ≤ 60 ∧ clock.nanos < 1000000000

instance (clock : Clock) : Decidable clock.IsValid :=
  inferInstanceAs (Decidable (_ ∧ _ ∧ _ ∧ _))

/-- The seconds since midnight, a leap second counted as the second before it. -/
def secondOfDay (clock : Clock) : Nat :=
  3600 * clock.hour + 60 * clock.minute + min clock.second 59

def instantNanos (clock : Clock) : Nat :=
  if clock.second = 60 then clock.nanos + 1000000000 else clock.nanos

def startOfDay : Clock :=
  ⟨0, 0, 0, 0⟩

/-- The last nanosecond of a day without a leap second. -/
def endOfDay : Clock :=
  ⟨23, 59, 59, 999999999⟩

end Clock

namespace Instant

instance : Ord Instant :=
  ⟨compareLex (compareOn seconds) (compareOn nanos)⟩

instance : Std.TransOrd Instant :=
  inferInstanceAs (Std.TransCmp (compareLex _ _))

instance : Std.LawfulEqOrd Instant where
  compare_self := Std.ReflOrd.compare_self
  eq_of_compare {a b} h := by
    have h : compareLex (compareOn seconds) (compareOn nanos) a b = .eq := h
    simp only [compareLex_eq_eq, compareOn, Std.LawfulEqOrd.compare_eq_iff_eq] at h
    cases a
    cases b
    simp_all

instance : LE Instant :=
  ⟨fun a b => (compare a b).isLE⟩

instance (a b : Instant) : Decidable (a ≤ b) :=
  inferInstanceAs (Decidable ((compare a b).isLE = true))

def ofSeconds? (seconds : Int) (nanos : Nat) : Option Instant :=
  if h : IsInstant seconds nanos then some ⟨seconds, nanos, h⟩ else none

/-- The instant of a date and time of day at an offset, in seconds east of universal time. -/
def ofCivil? (date : Date) (clock : Clock) (offset : Int) : Option Instant :=
  if date.IsValid ∧ clock.IsValid ∧ firstYear ≤ date.year ∧ date.year ≤ lastYear then
    ofSeconds? (daySeconds * date.dayNumber + clock.secondOfDay - offset) clock.instantNanos
  else
    none

def date (t : Instant) : Date :=
  Date.ofDayNumber (t.seconds / daySeconds)

def clock (t : Instant) : Clock :=
  let second := (t.seconds % daySeconds).toNat
  let leap := 1000000000 ≤ t.nanos
  ⟨second / 3600, second / 60 % 60, if leap then 60 else second % 60, t.nanos % 1000000000⟩

end Instant

end MarketFees
