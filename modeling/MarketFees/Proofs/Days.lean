import MarketFees.CommandLine.Arguments
import MarketFees.Proofs.Sequence
import MarketFees.Proofs.TimeText

namespace MarketFees

namespace Date

/-- The order of the calendar. -/
instance : LE Date :=
  ⟨fun a b => a.year < b.year ∨
    a.year = b.year ∧ (a.month < b.month ∨ a.month = b.month ∧ a.day ≤ b.day)⟩

theorem le_iff {a b : Date} : a ≤ b ↔ a.year < b.year ∨
    a.year = b.year ∧ (a.month < b.month ∨ a.month = b.month ∧ a.day ≤ b.day) :=
  Iff.rfl

theorem not_le_iff {a b : Date} : ¬a ≤ b ↔ b.year < a.year ∨
    b.year = a.year ∧ (b.month < a.month ∨ b.month = a.month ∧ b.day < a.day) := by
  rw [le_iff]
  omega

theorem le_antisymm {a b : Date} (hab : a ≤ b) (hba : b ≤ a) : a = b := by
  rw [le_iff] at hab hba
  cases a
  cases b
  simp only [mk.injEq] at hab hba ⊢
  omega

theorem daysIn_append (l m : List Nat) : daysIn (l ++ m) = daysIn l + daysIn m := by
  induction l with
  | nil => exact (Nat.zero_add _).symm
  | cons length l ih =>
    rw [daysIn, daysIn, List.cons_append, List.foldr_cons, List.foldr_cons]
    rw [daysIn, daysIn] at ih
    omega

theorem daysIn_take_add_le {lengths : List Nat} {i j length : Nat} (hi : lengths[i]? = some length)
    (hij : i < j) : daysIn (lengths.take i) + length ≤ daysIn (lengths.take j) := by
  have hnext : lengths.take (i + 1) = lengths.take i ++ [length] := by
    rw [List.take_add_one, hi]
    rfl
  have hlater : lengths.take j = lengths.take (i + 1) ++ (lengths.take j).drop (i + 1) := by
    have hparts := List.take_append_drop (i + 1) (lengths.take j)
    rw [List.take_take, Nat.min_eq_left hij] at hparts
    exact hparts.symm
  rw [hlater, daysIn_append, hnext, daysIn_append]
  exact Nat.le_add_right _ _

theorem daysBeforeYear_le {a b : Int} (h : a ≤ b) : daysBeforeYear a ≤ daysBeforeYear b := by
  unfold daysBeforeYear
  omega

theorem le_dayNumber {date : Date} (h : 1 ≤ date.day) :
    daysBeforeYear date.year + daysIn ((monthLengths date.year).take (date.month - 1)) ≤
      date.dayNumber + 719162 := by
  have hbefore : daysBeforeMonth date.year date.month =
      daysIn ((monthLengths date.year).take (date.month - 1)) := rfl
  rw [dayNumber, hbefore]
  omega

namespace IsValid

variable {a b : Date}

theorem dayNumber_lt (h : a.IsValid) {month : Nat} (hmonth : a.month < month) :
    a.dayNumber + 719162 <
      daysBeforeYear a.year + daysIn ((monthLengths a.year).take (month - 1)) := by
  obtain ⟨hfirst, hday, length, hlength, hle⟩ := h
  have hindex : a.month - 1 < month - 1 := by omega
  have hmonths := daysIn_take_add_le hlength hindex
  have hbefore : daysBeforeMonth a.year a.month =
      daysIn ((monthLengths a.year).take (a.month - 1)) := rfl
  rw [dayNumber, hbefore]
  omega

theorem dayNumber_lt_of_not_le (ha : a.IsValid) (hb : b.IsValid) (h : ¬b ≤ a) :
    a.dayNumber < b.dayNumber := by
  obtain ⟨-, hmonth, hday, -⟩ := ha.bounds
  have hstart := le_dayNumber hb.bounds.2.2.1
  -- A later year starts after the whole of `a`'s, a later month after the whole of its month.
  rcases not_le_iff.1 h with hyear | ⟨hyear, hmonths | ⟨hmonths, hdays⟩⟩
  · have hend := ha.dayNumber_lt (Nat.lt_succ_of_le hmonth)
    have hall : (monthLengths a.year).take (12 + 1 - 1) = monthLengths a.year := rfl
    rw [hall, ← daysBeforeYear_add_one] at hend
    have hyears := daysBeforeYear_le (Int.add_one_le_of_lt hyear)
    omega
  · have hend := ha.dayNumber_lt hmonths
    rw [hyear] at hend
    omega
  · rw [dayNumber, dayNumber, hyear, hmonths]
    omega

theorem le_iff_dayNumber_le (ha : a.IsValid) (hb : b.IsValid) :
    a ≤ b ↔ a.dayNumber ≤ b.dayNumber := by
  constructor
  · intro h
    by_cases hle : b ≤ a
    · exact Int.le_of_eq (congrArg dayNumber (le_antisymm h hle))
    · exact Int.le_of_lt (ha.dayNumber_lt_of_not_le hb hle)
  · intro h
    by_contra hle
    exact Int.not_lt.2 h (hb.dayNumber_lt_of_not_le ha hle)

theorem ofDayNumber_dayNumber (h : a.IsValid) : ofDayNumber a.dayNumber = a := by
  obtain ⟨hvalid, hnumber⟩ := ofDayNumber_spec a.dayNumber
  apply le_antisymm
  · exact (hvalid.le_iff_dayNumber_le h).2 (Int.le_of_eq hnumber)
  · exact (h.le_iff_dayNumber_le hvalid).2 (Int.ge_of_eq hnumber)

end IsValid

end Date

/-- A date on which there are instants. -/
structure Day where
  date : Date
  isValid : date.IsValid
  inRange : firstYear ≤ date.year ∧ date.year ≤ lastYear
  deriving DecidableEq

namespace Day

def number (day : Day) : Int :=
  day.date.dayNumber

/-- The bare date: four digits of the year, and two of the month and of the day. -/
def text (day : Day) : String :=
  .ofList day.date.chars

instance : LE Day :=
  ⟨fun a b => a.date ≤ b.date⟩

theorem le_iff {a b : Day} : a ≤ b ↔ a.number ≤ b.number :=
  a.isValid.le_iff_dayNumber_le b.isValid

theorem eq_iff {a b : Day} : a = b ↔ a.number = b.number := by
  refine ⟨congrArg number, fun h => ?_⟩
  have hdate : a.date = b.date :=
    Date.le_antisymm ((le_iff (a := a)).2 (Int.le_of_eq h)) ((le_iff (a := b)).2 (Int.ge_of_eq h))
  cases a
  cases b
  cases hdate
  rfl

end Day

namespace Instant

def day (t : Instant) : Day :=
  ⟨t.date, Date.isValid_ofDayNumber _, t.isInstant.2⟩

theorem number_day (t : Instant) : t.day.number = t.seconds / daySeconds :=
  Date.dayNumber_ofDayNumber _

/-- Whether an instant is in a leap second after the last second of its day. -/
def EndsDay (t : Instant) : Prop :=
  t.clock.hour = 23 ∧ t.clock.minute = 59 ∧ t.clock.second = 60

instance (t : Instant) : Decidable t.EndsDay :=
  inferInstanceAs (Decidable (_ ∧ _ ∧ _))

theorem endsDay_iff {t : Instant} :
    t.EndsDay ↔ t.seconds % daySeconds = 86399 ∧ 1000000000 ≤ t.nanos := by
  have hleap := t.isInstant.1
  simp only [EndsDay, clock, daySeconds]
  split <;> omega

theorem le_iff {a b : Instant} :
    a ≤ b ↔ a.seconds < b.seconds ∨ a.seconds = b.seconds ∧ a.nanos ≤ b.nanos := by
  have hcompare : a ≤ b ↔
      ((compare a.seconds b.seconds).then (compare a.nanos b.nanos)).isLE = true := Iff.rfl
  rw [hcompare]
  rcases Int.lt_trichotomy a.seconds b.seconds with h | h | h
  · rw [Int.compare_eq_lt.2 h]
    simp [h]
  · rw [Int.compare_eq_eq.2 h]
    simp [h, Nat.isLE_compare]
  · rw [Int.compare_eq_gt.2 h]
    simp [Int.lt_asymm h, Int.ne_of_gt h]

theorem exists_ofCivil? (day : Day) {clock : Clock} (hclock : clock.IsValid)
    (hleap : clock.second < 60) : ∃ t, ofCivil? day.date clock 0 = some t ∧
      t.seconds = daySeconds * day.number + clock.secondOfDay ∧ t.nanos = clock.nanos := by
  have hnanos : clock.instantNanos = clock.nanos := if_neg (Nat.ne_of_lt hleap)
  have hnumber : (daySeconds * day.number + clock.secondOfDay - 0) / daySeconds = day.number := by
    obtain ⟨hhour, hminute, -, -⟩ := hclock
    rw [Clock.secondOfDay, daySeconds]
    omega
  have hinstant : IsInstant (daySeconds * day.number + clock.secondOfDay - 0) clock.nanos := by
    rw [IsInstant, hnumber, Day.number, day.isValid.ofDayNumber_dayNumber]
    exact ⟨.inl hclock.2.2.2, day.inRange⟩
  refine ⟨⟨_, _, hinstant⟩, ?_, Int.sub_zero _, rfl⟩
  rw [ofCivil?, if_pos ⟨day.isValid, hclock, day.inRange⟩, hnanos]
  exact dif_pos hinstant

end Instant

namespace Time

open Text

theorem scanAll_eq_error {item : Item} {layout : List Item} {parts : Parts} {text : List Char}
    {e : TimeError} (h : item.scan parts text = .error e) :
    scanAll parts (item :: layout) text = .error e := by
  rw [scanAll, h]
  rfl

theorem scanAll_fixed {field : Field} {layout : List Item} {n : Nat} {parts : Parts}
    {rest : List Char} (hwide : n < Nat.pow 10 field.width) (hn : field.Holds n) :
    scanAll parts (.fixed field :: layout) (padded field.width n ++ rest) =
      scanAll (field.put n parts) layout rest := by
  apply scanAll_cons
  have hwidth : 0 < field.width := by cases field <;> decide
  have hlength := length_padded_eq hwidth hwide
  have hnumber := scanNumber_append field.width rest (fun c hc => isDigit_of_mem_padded hc)
    (Nat.le_of_eq hlength.symm) (Nat.le_of_eq hlength) (.inl hlength)
  rw [digitsValue_padded] at hnumber
  simp [Item.scan, hnumber, Field.set?_of_holds hn, bind, Except.bind, pure, Except.pure]

theorem chars_eq (date : Date) : date.chars =
    yearChars date.year ++ '-' :: (padded 2 date.month ++ '-' :: (padded 2 date.day ++ [])) := by
  simp [Date.chars, yearChars]

theorem scanAll_date (day : Day) : scanAll .empty dateLayout day.date.chars =
    .ok { Parts.empty with
      year := day.date.year, month := day.date.month, day := day.date.day } := by
  obtain ⟨hmonth, hday⟩ := Field.holds_of_isValid_date day.isValid
  rw [chars_eq, dateLayout, scanAll_year day.inRange, scanAll_mark,
    scanAll_loose (by decide) hmonth, scanAll_mark, scanAll_loose (by decide) hday]
  rfl

theorem exists_scanNumber_eq_error {c : Char} (hc : c.isDigit = false) {least : Nat}
    (hleast : 0 < least) (most : Nat) (text : List Char) :
    ∃ e, scanNumber least most (c :: text) = .error e := by
  have hrun : ((c :: text).take most).takeWhile Char.isDigit = [] := by
    cases most with
    | zero => rfl
    | succ most => simp [hc]
  have hshort : ¬least ≤ ([] : List Char).length := Nat.not_le.2 hleast
  rw [scanNumber, hrun, if_neg hshort]
  split <;> exact ⟨_, rfl⟩

/-- A bare date is no timestamp. -/
theorem exists_scanAll_strict (day : Day) :
    ∃ e, scanAll .empty strictLayout day.date.chars = .error e := by
  obtain ⟨hmonth, hday⟩ := Field.holds_of_isValid_date day.isValid
  rw [chars_eq, strictLayout, yearChars]
  -- A year of four digits leaves the time of day missing; any other has a sign in front.
  split
  · next hyear =>
    have hfour : day.date.year.natAbs < 10000 := by omega
    have habs : (day.date.year.natAbs : Int) = day.date.year := by omega
    have hholds : Field.year.Holds (day.date.year.natAbs : Int) :=
      Field.holds_year (habs ▸ day.inRange)
    have hmonthWide := Field.lt_of_holds (by decide) hmonth
    have hdayWide := Field.lt_of_holds (by decide) hday
    refine ⟨.tooShort, (scanAll_fixed hfour hholds).trans ?_⟩
    rw [scanAll_mark]
    refine (scanAll_fixed hmonthWide hmonth).trans ?_
    rw [scanAll_mark]
    exact scanAll_fixed hdayWide hday
  · next hyear =>
    have hsign : (if day.date.year < 0 then '-' else '+').isDigit = false := by split <;> decide
    have hwidth : 0 < Field.year.width := by decide
    rw [List.cons_append]
    obtain ⟨e, he⟩ := exists_scanNumber_eq_error hsign hwidth Field.year.width _
    refine ⟨e, scanAll_eq_error ?_⟩
    rw [Item.scan, he]
    rfl

end Time

/-- A bare date is the time of day on its day. -/
theorem Instant.exists_ofArgument (day : Day) {clock : Clock} (hclock : clock.IsValid)
    (hleap : clock.second < 60) : ∃ t, ofArgument clock day.text = .ok t ∧
      t.seconds = daySeconds * day.number + clock.secondOfDay ∧ t.nanos = clock.nanos := by
  obtain ⟨e, he⟩ := Time.exists_scanAll_strict day
  have hstrict : Time.read Time.strictLayout day.text = .error e := by
    rw [Time.read, Day.text, String.toList_ofList, he]
    rfl
  obtain ⟨t, ht, hseconds, hnanos⟩ := exists_ofCivil? day hclock hleap
  have hdate : Time.readDate clock day.text = .ok t := by
    rw [Time.readDate, Day.text, String.toList_ofList, Time.scanAll_date, ok_bind]
    simp only [Time.Parts.date, ht]
  refine ⟨t, ?_, hseconds, hnanos⟩
  rw [ofArgument, hstrict]
  exact hdate

namespace Filters

/-- The filters of a period between two bare dates. -/
def ofDays (first last : Day) : Except TimeError Filters := do
  let startAt ← Instant.ofArgument .startOfDay first.text
  let endAt ← Instant.ofArgument .endOfDay last.text
  return none.completedBetween startAt endAt

def Covers (first last : Day) (t : Instant) : Prop :=
  first ≤ t.day ∧ t.day ≤ last ∧ ¬(t.day = last ∧ t.EndsDay)

theorem covers_iff {first last : Day} {t startAt endAt : Instant}
    (hstart : startAt.seconds = daySeconds * first.number ∧ startAt.nanos = 0)
    (hend : endAt.seconds = daySeconds * last.number + 86399 ∧ endAt.nanos = 999999999) :
    startAt ≤ t ∧ t ≤ endAt ↔ Covers first last t := by
  rw [Covers, Day.le_iff, Day.le_iff, Day.eq_iff, t.number_day, Instant.endsDay_iff, Instant.le_iff,
    Instant.le_iff, hstart.1, hstart.2, hend.1, hend.2]
  unfold daySeconds
  omega

theorem matchesOrder_completedBetween {startAt endAt : Instant} {o : Order} :
    (none.completedBetween startAt endAt).matchesOrder o = true ↔
      ∃ t, o.completedAt = some t ∧ startAt ≤ t ∧ t ≤ endAt := by
  rw [matchesOrder]
  cases o.completedAt with
  | none => simp
  | some t => simp [completedBetween, none, allows]

theorem exists_ofDays (first last : Day) : ∃ f, ofDays first last = .ok f ∧
    ∀ o : Order, f.matchesOrder o = true ↔ ∃ t, o.completedAt = some t ∧ Covers first last t := by
  have hclocks : Clock.startOfDay.IsValid ∧ Clock.endOfDay.IsValid := by decide
  obtain ⟨startAt, hstartAt, hseconds, hnanos⟩ :=
    Instant.exists_ofArgument first hclocks.1 (by decide)
  obtain ⟨endAt, hendAt, hend⟩ := Instant.exists_ofArgument last hclocks.2 (by decide)
  have hstart : startAt.seconds = daySeconds * first.number ∧ startAt.nanos = 0 :=
    ⟨hseconds.trans (Int.add_zero _), hnanos⟩
  refine ⟨none.completedBetween startAt endAt, ?_, fun o => ?_⟩
  · rw [ofDays, hstartAt, hendAt]
    rfl
  · rw [matchesOrder_completedBetween]
    exact exists_congr fun t => and_congr_right' (covers_iff hstart hend)

theorem covers_self_iff {day : Day} {t : Instant} : Covers day day t ↔ t.day = day ∧ ¬t.EndsDay := by
  rw [Covers, Day.le_iff, Day.le_iff, Day.eq_iff]
  constructor
  · rintro ⟨hfirst, hlast, hend⟩
    have hday : t.day.number = day.number := Int.le_antisymm hlast hfirst
    exact ⟨hday, fun h => hend ⟨hday, h⟩⟩
  · rintro ⟨hday, hend⟩
    exact ⟨Int.ge_of_eq hday, Int.le_of_eq hday, fun h => hend h.2⟩

/-- A period between bare dates is one, and admits the orders completed on its days but for those
completed in a leap second that ends the last day. So an order is reported on the day on which it was
completed and on no other, and on no day where it was completed in a leap second that ends the day. -/
theorem ofDays_covers (first last : Day) (o : Order) :
    (∃ f, ofDays first last = .ok f ∧ (f.matchesOrder o = true ↔
      ∃ t, o.completedAt = some t ∧ first ≤ t.day ∧ t.day ≤ last ∧ ¬(t.day = last ∧ t.EndsDay))) ∧
      ∀ day, (∃ f, ofDays day day = .ok f ∧ f.matchesOrder o = true) ↔
        ∃ t, o.completedAt = some t ∧ t.day = day ∧ ¬t.EndsDay := by
  obtain ⟨f, hf, hmatches⟩ := exists_ofDays first last
  refine ⟨⟨f, hf, hmatches o⟩, fun day => ?_⟩
  obtain ⟨g, hg, hday⟩ := exists_ofDays day day
  simp only [hg, Except.ok.injEq, exists_eq_left', hday, covers_self_iff]

def newYearsEve : Day :=
  ⟨⟨2016, 12, 31⟩, by decide, by decide⟩

def leapSecond : Instant :=
  ⟨1483228799, 1000000000, by decide⟩

def leapSecondOrder : Order :=
  ⟨⟨1⟩, "", ⟨1⟩, ⟨1⟩, some leapSecond, [], []⟩

/-- An order completed in a leap second is in the report on no day, and not on the day of the second. -/
theorem ofDays_leapSecond_not_covered :
    Instant.ofDocument? "2016-12-31T23:59:60Z" = some leapSecond ∧
      leapSecondOrder.completedAt = some leapSecond ∧ leapSecond.day = newYearsEve ∧
      ∀ day, ∃ f, ofDays day day = .ok f ∧ f.matchesOrder leapSecondOrder = false := by
  refine ⟨by decide +kernel, rfl, by decide, fun day => ?_⟩
  obtain ⟨f, hf, hmatches⟩ := exists_ofDays day day
  refine ⟨f, hf, Bool.eq_false_iff.2 fun h => ?_⟩
  obtain ⟨t, ht, hcovers⟩ := (hmatches leapSecondOrder).1 h
  obtain rfl := Option.some.inj ht
  exact (covers_self_iff.1 hcovers).2 (by decide)

end Filters

end MarketFees
