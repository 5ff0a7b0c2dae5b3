import Mathlib.Tactic.SplitIfs
import MarketFees.Proofs.Calendar
import MarketFees.Proofs.DecimalText
import MarketFees.Time.Reader
import MarketFees.Time.Text

namespace MarketFees

namespace Text

theorem length_padded_eq {width n : Nat} (hw : 0 < width) (hn : n < Nat.pow 10 width) :
    (padded width n).length = width := by
  have := (Nat.length_toDigits_le_iff (b := 10) (by decide) hw).2 hn
  simp only [padded, List.length_append, List.length_replicate]
  omega

theorem toNat_of_isDigit {c : Char} (h : c.isDigit) : 48 ≤ c.toNat ∧ c.toNat ≤ 57 := by
  simpa [Char.isDigit, UInt32.le_iff_toNat_le] using h

theorem isBlank_of_isDigit {c : Char} (h : c.isDigit) : isBlank c = false := by
  have hc := toNat_of_isDigit h
  simp only [isBlank, blanks, List.contains_eq_mem, List.mem_cons, List.not_mem_nil, or_false,
    decide_eq_false_iff_not]
  omega

theorem skipBlanks_of_isDigit {c : Char} {rest : List Char} (h : c.isDigit) :
    skipBlanks (c :: rest) = c :: rest := by
  simp [skipBlanks, isBlank_of_isDigit h]

end Text

namespace Time

open Text

/-- A run of digits is read to its end, where the number may not be longer or something else
follows. -/
theorem scanNumber_append (least : Nat) {most : Nat} {digits : List Char} (rest : List Char)
    (hd : ∀ c ∈ digits, c.isDigit) (hl : least ≤ digits.length) (hm : digits.length ≤ most)
    (hrest : digits.length = most ∨ ∀ c ∈ rest.head?, c.isDigit = false) :
    scanNumber least most (digits ++ rest) = .ok (digitsValue digits, rest) := by
  have hrun : ((digits ++ rest).take most).takeWhile Char.isDigit = digits := by
    rw [List.take_append, List.take_of_length_le hm, List.takeWhile_append_of_pos hd]
    rcases hrest with h | h
    · simp [h]
    · cases rest with
      | nil => simp
      | cons c rest =>
        have hc := h c rfl
        cases most - digits.length <;> simp [hc]
  rw [scanNumber]
  simp only [hrun, if_pos hl, List.drop_left]

theorem scanAll_cons {item : Item} {layout : List Item} {parts parts' : Parts}
    {text rest : List Char} (h : item.scan parts text = .ok (parts', rest)) :
    scanAll parts (item :: layout) text = scanAll parts' layout rest := by
  rw [scanAll, h]
  rfl

theorem scanAll_mark {c : Char} {others : List Char} {layout : List Item} {parts : Parts}
    {rest : List Char} :
    scanAll parts (.mark (c :: others) :: layout) (c :: rest) = scanAll parts layout rest :=
  scanAll_cons (by simp [Item.scan])

theorem scanAll_noBlanks {c : Char} {layout : List Item} {parts : Parts} {rest : List Char}
    (h : isBlank c = false) :
    scanAll parts (.blanks :: layout) (c :: rest) = scanAll parts layout (c :: rest) :=
  scanAll_cons (by simp [Item.scan, skipBlanks, h])

theorem skipBlanks_padded (width n : Nat) (rest : List Char) :
    skipBlanks (padded width n ++ rest) = padded width n ++ rest := by
  cases h : padded width n with
  | nil => simp [padded] at h
  | cons c tail =>
    have hc : c.isDigit := isDigit_of_mem_padded (h ▸ List.mem_cons_self ..)
    exact skipBlanks_of_isDigit hc

theorem scanAll_blanks {layout : List Item} {width n : Nat} {parts : Parts} {rest : List Char} :
    scanAll parts (.blanks :: layout) (' ' :: (padded width n ++ rest)) =
      scanAll parts layout (padded width n ++ rest) := by
  apply scanAll_cons
  have hskip : skipBlanks (' ' :: (padded width n ++ rest)) = skipBlanks (padded width n ++ rest) :=
    rfl
  rw [Item.scan, hskip, skipBlanks_padded]

namespace Field

theorem set?_of_holds {field : Field} {n : Int} (h : field.Holds n) (parts : Parts) :
    field.set? n parts = .ok (field.put n parts) :=
  if_pos h

theorem lt_of_holds {field : Field} {n : Nat} (hfield : field ≠ .year) (h : field.Holds n) :
    n < 100 := by
  cases field with
  | year => exact (hfield rfl).elim
  | _ =>
    simp only [Holds, range] at h
    omega

theorem holds_of_isValid_date {date : Date} (h : date.IsValid) :
    Field.month.Holds date.month ∧ Field.day.Holds date.day := by
  have hbounds := h.bounds
  simp only [Holds, range]
  omega

theorem holds_of_isValid_clock {clock : Clock} (h : clock.IsValid) :
    Field.hour.Holds clock.hour ∧ Field.minute.Holds clock.minute ∧
      Field.second.Holds clock.second := by
  obtain ⟨hhour, hminute, hsecond, -⟩ := h
  simp only [Holds, range]
  omega

theorem holds_year {n : Int} (h : firstYear ≤ n ∧ n ≤ lastYear) : Field.year.Holds n := by
  have hmin : Int32.minValue.toInt = -2147483648 := by decide
  have hmax : Int32.maxValue.toInt = 2147483647 := by decide
  unfold firstYear lastYear at h
  simp only [Holds, range, hmin, hmax]
  omega

end Field

theorem scanAll_loose {field : Field} {layout : List Item} {n : Nat} {parts : Parts}
    {rest : List Char} (hfield : field ≠ .year) (hn : field.Holds n) :
    scanAll parts (.loose field :: layout) (padded 2 n ++ rest) =
      scanAll (field.put n parts) layout rest := by
  apply scanAll_cons
  have hlength : (padded 2 n).length = 2 :=
    length_padded_eq (by decide) (Field.lt_of_holds hfield hn)
  have hdigit : ∀ c ∈ padded 2 n, c.isDigit := fun c hc => isDigit_of_mem_padded hc
  have hnumber := scanNumber_append 1 rest hdigit (by omega)
    (Nat.le_of_eq hlength) (.inl hlength)
  rw [digitsValue_padded] at hnumber
  have hscan : scanLoose field (padded 2 n ++ rest) = .ok ((n : Int), rest) := by
    cases field with
    | year => exact (hfield rfl).elim
    | _ => simp [scanLoose, skipBlanks_padded, Field.width, hnumber, Except.map]
  simp [Item.scan, hscan, Field.set?_of_holds hn, bind, Except.bind, pure, Except.pure]

def yearChars (year : Int) : List Char :=
  if 0 ≤ year ∧ year ≤ 9999 then padded 4 year.natAbs
  else (if year < 0 then '-' else '+') :: padded 4 year.natAbs

theorem scanYear_padded {n : Nat} (h : n < 10000) (rest : List Char) :
    scanYear (skipBlanks (padded 4 n ++ rest)) = .ok ((n : Int), rest) := by
  have hfour : (padded 4 n).length = 4 := length_padded_eq (by decide) h
  have hnumber := scanNumber_append 1 rest (fun c hc => isDigit_of_mem_padded hc) (by omega)
    (Nat.le_of_eq hfour) (.inl hfour)
  rw [digitsValue_padded] at hnumber
  rw [skipBlanks_padded]
  cases hp : padded 4 n with
  | nil => simp [hp] at hfour
  | cons c tail =>
    have hc : c.isDigit := isDigit_of_mem_padded (hp ▸ List.mem_cons_self ..)
    have hminus := ne_of_isDigit hc (d := '-') (by decide)
    have hplus := ne_of_isDigit hc (d := '+') (by decide)
    rw [hp, List.cons_append] at hnumber
    rw [List.cons_append]
    unfold scanYear
    split
    · simp_all
    · simp_all
    · rw [hnumber]
      rfl

theorem scanYear_signed {c : Char} (hc : c = '-' ∨ c = '+') (n : Nat) (rest : List Char) :
    scanYear (skipBlanks (c :: (padded 4 n ++ '-' :: rest))) =
      .ok (if c = '-' then -(n : Int) else n, '-' :: rest) := by
  have hlength := length_padded 4 n
  have hfits : (padded 4 n).length ≤ (padded 4 n ++ '-' :: rest).length := by simp
  have hnumber := scanNumber_append 1 ('-' :: rest) (fun c hc => isDigit_of_mem_padded hc) (by omega)
    hfits (.inr (by simp))
  rw [digitsValue_padded] at hnumber
  generalize padded 4 n ++ '-' :: rest = text at hnumber ⊢
  have hskip : skipBlanks (c :: text) = c :: text := by
    have hblank : isBlank c = false := by obtain rfl | rfl := hc <;> decide
    simp [skipBlanks, hblank]
  rw [hskip]
  obtain rfl | rfl := hc <;> simp [scanYear, hnumber, Except.map]

theorem scanYear_yearChars (year : Int) (rest : List Char) :
    scanYear (skipBlanks (yearChars year ++ '-' :: rest)) = .ok (year, '-' :: rest) := by
  rw [yearChars]
  split
  · next h =>
    have habs : (year.natAbs : Int) = year := by omega
    rw [scanYear_padded (by omega), habs]
  · next h =>
    by_cases hneg : year < 0
    · have habs : -(year.natAbs : Int) = year := by omega
      rw [if_pos hneg, List.cons_append, scanYear_signed (.inl rfl), if_pos rfl, habs]
    · have habs : (year.natAbs : Int) = year := by omega
      rw [if_neg hneg, List.cons_append, scanYear_signed (.inr rfl), if_neg (by decide), habs]

theorem scan_point {width n : Nat} {parts : Parts} {rest : List Char} (hwidth : 0 < width ∧ width ≤ 9)
    (hn : n < Nat.pow 10 width) (hrest : ∀ c ∈ rest.head?, c.isDigit = false) :
    Item.fraction.scan parts ('.' :: (padded width n ++ rest)) =
      .ok ({ parts with nanos := n * powerOfTen (9 - width) }, rest) := by
  have hlength := length_padded_eq hwidth.1 hn
  have hfits : (padded width n).length ≤ 9 := by omega
  have hnumber := scanNumber_append 1 rest (fun c hc => isDigit_of_mem_padded hc) (by omega) hfits
    (.inr hrest)
  rw [digitsValue_padded] at hnumber
  have hconsumed : (padded width n ++ rest).length - rest.length = width := by
    rw [List.length_append, Nat.add_sub_cancel, hlength]
  have hdrop : rest.dropWhile Char.isDigit = rest := by
    cases rest with
    | nil => rfl
    | cons c rest => simp [hrest c rfl]
  simp only [Item.scan, scanFraction, hnumber, Except.map, hconsumed, hdrop]

/-- The nanoseconds of a fraction, before what is neither a digit nor a point. -/
theorem scan_fraction {nanos : Nat} {parts : Parts} {rest : List Char} (hn : nanos < 1000000000)
    (hparts : parts.nanos = 0) (hrest : ∀ c ∈ rest.head?, c.isDigit = false ∧ c ≠ '.') :
    Item.fraction.scan parts (fractionChars nanos ++ rest) = .ok ({ parts with nanos }, rest) := by
  have hdigit : ∀ c ∈ rest.head?, c.isDigit = false := fun c hc => (hrest c hc).1
  rw [fractionChars]
  split_ifs with hzero hmillis hmicros
  · subst hzero
    cases parts
    cases hparts
    cases rest with
    | nil => rfl
    | cons c rest => simp [Item.scan, (hrest c rfl).2]
  · have hlt : nanos / 1000000 < 1000 := by omega
    have hnanos : nanos / 1000000 * 1000000 = nanos := by omega
    refine (scan_point (by decide) hlt hdigit).trans ?_
    exact congrArg (fun nanos => Except.ok ({ parts with nanos }, rest)) hnanos
  · have hlt : nanos / 1000 < 1000000 := by omega
    have hnanos : nanos / 1000 * 1000 = nanos := by omega
    refine (scan_point (by decide) hlt hdigit).trans ?_
    exact congrArg (fun nanos => Except.ok ({ parts with nanos }, rest)) hnanos
  · refine (scan_point (by decide) hn hdigit).trans ?_
    exact congrArg (fun nanos => Except.ok ({ parts with nanos }, rest)) (Nat.mul_one nanos)

theorem scanAll_year {year : Int} {layout : List Item} {parts : Parts} {rest : List Char}
    (h : firstYear ≤ year ∧ year ≤ lastYear) :
    scanAll parts (.loose .year :: layout) (yearChars year ++ '-' :: rest) =
      scanAll { parts with year } layout ('-' :: rest) := by
  apply scanAll_cons
  simp [Item.scan, scanLoose, scanYear_yearChars, Field.set?_of_holds (Field.holds_year h), Field.put,
    bind, Except.bind, pure, Except.pure]

def Parts.ofCivil (date : Date) (clock : Clock) : Parts :=
  ⟨date.year, date.month, date.day, clock.hour, clock.minute, clock.second, clock.nanos, 0⟩

theorem Parts.instant_ofCivil (t : Instant) : (ofCivil t.date t.clock).instant = .ok t := by
  have hcivil : Instant.ofCivil? (ofCivil t.date t.clock).date (ofCivil t.date t.clock).clock
      (ofCivil t.date t.clock).offset = some t := t.ofCivil?_date_clock
  rw [instant, hcivil]
  exact if_pos (by decide : (0 : Int).natAbs < 86400)

section

variable {date : Date} {clock : Clock}

/-- A stored date and time of day is read to its last part. -/
theorem scanAll_stored (hd : date.IsValid) (hc : clock.IsValid)
    (hy : firstYear ≤ date.year ∧ date.year ≤ lastYear) :
    scanAll .empty (storedLayout .blanks ++ [.zone .permissive])
        (date.chars ++ ' ' :: clock.chars ++ ['+', '0', '0', ':', '0', '0']) =
      .ok (.ofCivil date clock) := by
  obtain ⟨hmonth, hday⟩ := Field.holds_of_isValid_date hd
  obtain ⟨hhour, hminute, hsecond⟩ := Field.holds_of_isValid_clock hc
  have hnanos : clock.nanos < 1000000000 := hc.2.2.2
  have htext : date.chars ++ ' ' :: clock.chars ++ ['+', '0', '0', ':', '0', '0'] =
      yearChars date.year ++ '-' :: (padded 2 date.month ++ '-' :: (padded 2 date.day ++
      ' ' :: (padded 2 clock.hour ++ ':' :: (padded 2 clock.minute ++ ':' ::
      (padded 2 clock.second ++ (fractionChars clock.nanos ++ '+' :: ['0', '0', ':', '0', '0'])))))) := by
    simp [Date.chars, Clock.chars, yearChars]
  rw [htext, storedLayout, dateLayout]
  simp only [List.cons_append, List.nil_append]
  rw [scanAll_year hy, scanAll_mark, scanAll_loose (by decide) hmonth, scanAll_mark,
    scanAll_loose (by decide) hday, scanAll_blanks, scanAll_loose (by decide) hhour, scanAll_mark,
    scanAll_loose (by decide) hminute, scanAll_mark, scanAll_loose (by decide) hsecond,
    scanAll_cons (scan_fraction hnanos rfl (by simp))]
  rfl

theorem scanAll_document (hd : date.IsValid) (hc : clock.IsValid)
    (hy : firstYear ≤ date.year ∧ date.year ≤ lastYear) :
    scanAll .empty relaxedLayout (date.chars ++ 'T' :: clock.chars ++ ['Z']) =
      .ok (.ofCivil date clock) := by
  obtain ⟨hmonth, hday⟩ := Field.holds_of_isValid_date hd
  obtain ⟨hhour, hminute, hsecond⟩ := Field.holds_of_isValid_clock hc
  have hnanos : clock.nanos < 1000000000 := hc.2.2.2
  have htext : date.chars ++ 'T' :: clock.chars ++ ['Z'] =
      yearChars date.year ++ '-' :: (padded 2 date.month ++ '-' :: (padded 2 date.day ++
      'T' :: (padded 2 clock.hour ++ ':' :: (padded 2 clock.minute ++ ':' ::
      (padded 2 clock.second ++ (fractionChars clock.nanos ++ ['Z'])))))) := by
    simp [Date.chars, Clock.chars, yearChars]
  have hdash : isBlank '-' = false := by decide
  have hcolon : isBlank ':' = false := by decide
  have hzone : isBlank 'Z' = false := by decide
  rw [htext, relaxedLayout, scanAll_year hy, scanAll_noBlanks hdash, scanAll_mark,
    scanAll_loose (by decide) hmonth, scanAll_noBlanks hdash, scanAll_mark,
    scanAll_loose (by decide) hday, scanAll_mark, scanAll_loose (by decide) hhour, scanAll_noBlanks hcolon,
    scanAll_mark, scanAll_loose (by decide) hminute, scanAll_noBlanks hcolon, scanAll_mark,
    scanAll_loose (by decide) hsecond, scanAll_cons (scan_fraction hnanos rfl (by simp)),
    scanAll_noBlanks hzone]
  rfl

end

end Time

namespace Text

/-- The bytes of characters below the letter `T` do not have this letter among them. -/
theorem toUTF8_ne {l : List Char} (h : ∀ c ∈ l, c.toNat < 84) (i : Nat) :
    (String.ofList l).toUTF8.data[i]? ≠ some 'T'.toUInt8 := by
  intro hi
  have hmem : 'T'.toUInt8 ∈ (String.ofList l).toUTF8.data := Array.mem_of_getElem? hi
  simp only [String.toUTF8_eq_toByteArray, String.toByteArray_ofList, List.utf8Encode,
    List.data_toByteArray, List.mem_toArray, List.mem_flatMap] at hmem
  obtain ⟨c, hc, hbyte⟩ := hmem
  have hlt : c.val.toNat < 84 := h c hc
  have hone : c.utf8Size = 1 := by
    rw [Char.utf8Size, if_pos]
    exact UInt32.le_iff_toNat_le.2 (Nat.le_trans (Nat.le_of_lt hlt) (by decide))
  rw [String.utf8EncodeChar_eq_singleton hone, List.mem_singleton] at hbyte
  have hvalue := congrArg UInt8.toNat hbyte
  have hT : 'T'.toUInt8.toNat = 84 := by decide
  rw [hT, UInt32.toNat_toUInt8] at hvalue
  omega

end Text

namespace Instant

open Text

theorem toNat_lt_of_mem_toStored {t : Instant} {c : Char}
    (h : c ∈ t.date.chars ++ ' ' :: t.clock.chars ++ ['+', '0', '0', ':', '0', '0']) :
    c.toNat < 84 := by
  have hp {width n : Nat} : ∀ c ∈ padded width n, c.toNat < 84 := fun c hc => by
    have := toNat_of_isDigit (isDigit_of_mem_padded hc)
    omega
  have hyear : ∀ c ∈ Time.yearChars t.date.year, c.toNat < 84 := by
    rw [Time.yearChars]
    split
    · exact hp
    · refine List.forall_mem_cons.2 ⟨?_, hp⟩
      split <;> decide
  have hfraction : ∀ c ∈ fractionChars t.clock.nanos, c.toNat < 84 := by
    rw [fractionChars]
    split
    · simp
    · split
      · exact List.forall_mem_cons.2 ⟨by decide, hp⟩
      · split <;> exact List.forall_mem_cons.2 ⟨by decide, hp⟩
  have hdate : ∀ c ∈ t.date.chars, c.toNat < 84 := by
    change ∀ c ∈ Time.yearChars t.date.year ++ '-' :: padded 2 t.date.month ++
      '-' :: padded 2 t.date.day, c.toNat < 84
    simp only [List.forall_mem_append, List.forall_mem_cons]
    exact ⟨⟨hyear, by decide, hp⟩, by decide, hp⟩
  have hclock : ∀ c ∈ t.clock.chars, c.toNat < 84 := by
    simp only [Clock.chars, List.forall_mem_append, List.forall_mem_cons]
    exact ⟨⟨⟨hp, by decide, hp⟩, by decide, hp⟩, hfraction⟩
  have hall : ∀ c ∈ t.date.chars ++ ' ' :: t.clock.chars ++ ['+', '0', '0', ':', '0', '0'],
      c.toNat < 84 := by
    simp only [List.forall_mem_append, List.forall_mem_cons]
    exact ⟨⟨hdate, by decide, hclock⟩, by decide, by decide, by decide, by decide, by decide,
      by decide, by simp⟩
  exact hall c h

theorem ofStored?_toStored (t : Instant) : ofStored? t.toStored = some t := by
  have hseparator : t.toStored.toUTF8.data[10]? ≠ some 'T'.toUInt8 :=
    toUTF8_ne (fun _ hc => toNat_lt_of_mem_toStored hc) 10
  have hscan := Time.scanAll_stored (Date.isValid_ofDayNumber (t.seconds / daySeconds))
    t.clock_isValid t.isInstant.2
  have hread : Time.read (Time.storedLayout .blanks ++ [.zone .permissive]) t.toStored = .ok t := by
    rw [Time.read, toStored, String.toList_ofList, date, hscan]
    exact Time.Parts.instant_ofCivil t
  simp only [ofStored?, if_neg hseparator, hread]
  rfl

theorem ofDocument?_toDocument (t : Instant) : ofDocument? t.toDocument = some t := by
  have hscan := Time.scanAll_document (Date.isValid_ofDayNumber (t.seconds / daySeconds))
    t.clock_isValid t.isInstant.2
  have hread : Time.read Time.relaxedLayout t.toDocument = .ok t := by
    rw [Time.read, toDocument, String.toList_ofList, date, hscan]
    exact Time.Parts.instant_ofCivil t
  rw [ofDocument?, hread]
  rfl

end Instant

end MarketFees
