import MarketFees.Time.Instant

namespace MarketFees

namespace Date

theorem yearOf_spec (day : Int) :
    daysBeforeYear (yearOf day) ≤ day ∧ day < daysBeforeYear (yearOf day + 1) := by
  unfold yearOf
  dsimp only
  split
  · next h =>
    unfold daysBeforeYear at h ⊢
    omega
  · split
    · next h =>
      unfold daysBeforeYear at h ⊢
      omega
    · unfold daysBeforeYear at *
      omega

def daysIn (lengths : List Nat) : Nat :=
  lengths.foldr (· + ·) 0

theorem daysIn_monthLengths (year : Int) :
    daysIn (monthLengths year) = if isLeapYear year then 366 else 365 := by
  rw [monthLengths]
  split <;> rfl

theorem daysBeforeYear_add_one (year : Int) :
    daysBeforeYear (year + 1) = daysBeforeYear year + daysIn (monthLengths year) := by
  rw [daysIn_monthLengths]
  simp only [daysBeforeYear, isLeapYear, Bool.and_eq_true, Bool.or_eq_true, beq_iff_eq, bne_iff_ne]
  split <;> omega

/-- The day of the month counts on from the days of the months before. -/
theorem monthAndDay_spec {lengths : List Nat} (month : Nat) {day : Nat} (h : day < daysIn lengths) :
    ∃ passed length dayOfMonth, monthAndDay month lengths day = (month + passed, dayOfMonth + 1) ∧
      lengths[passed]? = some length ∧ dayOfMonth < length ∧
      daysIn (lengths.take passed) + dayOfMonth = day := by
  induction lengths generalizing month day with
  | nil => simp [daysIn] at h
  | cons length rest ih =>
    rw [monthAndDay]
    split
    · next hlt => exact ⟨0, length, day, rfl, rfl, hlt, by simp [daysIn]⟩
    · next hge =>
      have hrest : day - length < daysIn rest := by
        simp only [daysIn, List.foldr_cons] at h ⊢
        omega
      obtain ⟨passed, l, d, he, hl, hd, hsum⟩ := ih (month + 1) hrest
      refine ⟨passed + 1, l, d, ?_, hl, hd, ?_⟩
      · rw [he, Nat.add_assoc, Nat.add_comm 1]
      · simp only [daysIn, List.take_succ_cons, List.foldr_cons] at hsum ⊢
        omega

theorem ofDayNumber_spec (n : Int) : (ofDayNumber n).IsValid ∧ (ofDayNumber n).dayNumber = n := by
  obtain ⟨hlow, hhigh⟩ := yearOf_spec (n + 719162)
  rw [daysBeforeYear_add_one] at hhigh
  generalize hyear : yearOf (n + 719162) = year at hlow hhigh
  have hday : (n + 719162 - daysBeforeYear year).toNat < daysIn (monthLengths year) := by omega
  obtain ⟨passed, length, d, he, hlength, hd, hsum⟩ := monthAndDay_spec 1 hday
  have hdate : ofDayNumber n = ⟨year, 1 + passed, d + 1⟩ := by
    rw [ofDayNumber]
    simp only [hyear, he]
  rw [hdate]
  have hpassed : 1 + passed - 1 = passed := by omega
  refine ⟨⟨Nat.le_add_right .., Nat.le_add_left .., length, ?_, hd⟩, ?_⟩
  · rw [hpassed, hlength]
    rfl
  · have hmonth : daysBeforeMonth year (1 + passed) = daysIn ((monthLengths year).take passed) := by
      rw [daysBeforeMonth, hpassed, daysIn]
    simp only [dayNumber, hmonth]
    omega

theorem IsValid.bounds {date : Date} (h : date.IsValid) :
    1 ≤ date.month ∧ date.month ≤ 12 ∧ 1 ≤ date.day ∧ date.day ≤ 31 := by
  obtain ⟨hmonth, hday, length, hlength, hle⟩ := h
  obtain ⟨hindex, -⟩ := List.getElem?_eq_some_iff.1 hlength
  have hlong : ∀ l ∈ monthLengths date.year, l ≤ 31 := by
    rw [monthLengths]
    split <;> decide
  have hmax := hlong _ (List.mem_of_getElem? hlength)
  have htwelve : (monthLengths date.year).length = 12 := rfl
  omega

theorem isValid_ofDayNumber (n : Int) : (ofDayNumber n).IsValid :=
  (ofDayNumber_spec n).1

theorem dayNumber_ofDayNumber (n : Int) : (ofDayNumber n).dayNumber = n :=
  (ofDayNumber_spec n).2

end Date

namespace Instant

theorem clock_isValid (t : Instant) : t.clock.IsValid := by
  simp only [clock, Clock.IsValid, daySeconds]
  split <;> omega

theorem secondOfDay_clock (t : Instant) : (t.clock.secondOfDay : Int) = t.seconds % daySeconds := by
  have hleap := t.isInstant.1
  simp only [clock, Clock.secondOfDay, daySeconds]
  split <;> omega

theorem instantNanos_clock (t : Instant) : t.clock.instantNanos = t.nanos := by
  have hleap := t.isInstant.1
  simp only [clock, Clock.instantNanos]
  split <;> split <;> omega

/-- An instant is the date and the time of day that it is shown as. -/
theorem ofCivil?_date_clock (t : Instant) : ofCivil? t.date t.clock 0 = some t := by
  obtain ⟨-, hfirst, hlast⟩ := t.isInstant
  have hseconds : daySeconds * t.date.dayNumber + t.clock.secondOfDay - 0 = t.seconds := by
    rw [date, Date.dayNumber_ofDayNumber, secondOfDay_clock]
    unfold daySeconds
    omega
  rw [ofCivil?, if_pos ⟨Date.isValid_ofDayNumber _, t.clock_isValid, hfirst, hlast⟩, hseconds,
    instantNanos_clock]
  exact dif_pos t.isInstant

end Instant

end MarketFees
