import Mathlib.Data.Option.Basic
import MarketFees.Decimal.Text

namespace MarketFees

namespace Text

/-- A run of digits that starts at a number never counts below it. -/
theorem le_ofDigitChars (l : List Char) (n : Nat) : n ≤ Nat.ofDigitChars 10 l n := by
  induction l generalizing n with
  | nil => simp
  | cons c rest ih =>
    rw [Nat.ofDigitChars_cons]
    have := ih (10 * n + (c.toNat - '0'.toNat))
    omega

theorem ofDigitChars_lt {digits : List Char} (h : ∀ c ∈ digits, c.isDigit) :
    Nat.ofDigitChars 10 digits 0 < Nat.pow 10 digits.length := by
  induction digits with
  | nil => simp
  | cons c rest ih =>
    have hrest := ih fun d hd => h d (List.mem_cons_of_mem _ hd)
    obtain ⟨-, hc⟩ := Char.isDigit_iff_toNat.1 (h c (List.mem_cons_self ..))
    have hdigit : 10 * 0 + (c.toNat - '0'.toNat) ≤ 9 := by
      change c.toNat ≤ 57 at hc
      change 10 * 0 + (c.toNat - 48) ≤ 9
      omega
    have hsplit : Nat.ofDigitChars 10 rest (10 * 0 + (c.toNat - '0'.toNat)) =
        Nat.pow 10 rest.length * (10 * 0 + (c.toNat - '0'.toNat)) + Nat.ofDigitChars 10 rest 0 :=
      Nat.ofDigitChars_eq_ofDigitChars_zero
    have hpower : Nat.pow 10 (c :: rest).length = Nat.pow 10 rest.length * 10 := rfl
    have := Nat.mul_le_mul_left (Nat.pow 10 rest.length) hdigit
    rw [Nat.ofDigitChars_cons, hsplit, hpower]
    omega

theorem exists_toDigits_eq (n : Nat) : ∃ c rest, Nat.toDigits 10 n = c :: rest ∧ c.isDigit := by
  obtain ⟨c, rest, h⟩ := List.exists_cons_of_ne_nil (Nat.toDigits_ne_nil (n := n) (b := 10))
  have hc : c ∈ Nat.toDigits 10 n := h ▸ List.mem_cons_self ..
  exact ⟨c, rest, h, Nat.isDigit_of_mem_toDigits (by decide) (by decide) hc⟩

theorem toDigits_eq_zero {n : Nat} (h : (Nat.toDigits 10 n).head? = some '0') :
    Nat.toDigits 10 n = ['0'] := by
  obtain ⟨rest, hrest⟩ := List.head?_eq_some_iff.1 h
  cases rest with
  | nil => exact hrest
  | cons c rest =>
    have hdigits : ∀ d ∈ c :: rest, d.isDigit := fun d hd =>
      Nat.isDigit_of_mem_toDigits (n := n) (b := 10) (by decide) (by decide)
        (hrest ▸ List.mem_cons_of_mem _ hd)
    have hvalue : Nat.ofDigitChars 10 (c :: rest) 0 = n := by
      rw [← Nat.ofDigitChars_ten_toDigits (n := n), hrest]
      simp [Nat.ofDigitChars_cons (c := '0')]
    have hlength := (Nat.length_toDigits_le_iff (b := 10) (by decide) (Nat.succ_pos rest.length)).2
      (hvalue ▸ ofDigitChars_lt hdigits)
    rw [hrest] at hlength
    simp only [List.length_cons] at hlength
    omega

theorem isDigit_of_mem_padded {width n : Nat} {c : Char} (h : c ∈ padded width n) : c.isDigit := by
  rcases List.mem_append.1 h with h | h
  · rw [(List.mem_replicate.1 h).2]
    rfl
  · exact Nat.isDigit_of_mem_toDigits (by decide) (by decide) h

theorem length_padded (width n : Nat) : width ≤ (padded width n).length := by
  simp only [padded, List.length_append, List.length_replicate]
  omega

theorem ne_of_isDigit {c d : Char} (hc : c.isDigit) (hd : d.isDigit = false) : c ≠ d := by
  rintro rfl
  simp [hc] at hd

end Text

namespace Decimal

open Text

/-- The decimal as its text reads: a zero has no sign. -/
def withoutZeroSign (a : Decimal) : Decimal :=
  { a with negative := a.negative && a.coefficient != 0 }

theorem Magnitude.absorb_digits {m : Magnitude} {l : List Char} (hl : ∀ c ∈ l, c.isDigit)
    (hs : m.scale + l.length ≤ 28) (hn : Nat.ofDigitChars 10 l m.coefficient < coefficientBound) :
    m.absorb l = (⟨Nat.ofDigitChars 10 l m.coefficient, m.scale + l.length⟩, []) := by
  induction l generalizing m with
  | nil => simp [absorb]
  | cons c rest ih =>
    have hc := hl c (List.mem_cons_self ..)
    rw [List.length_cons] at hs
    rw [Nat.ofDigitChars_cons] at hn ⊢
    have hnext : 10 * m.coefficient + digitsValue [c] = 10 * m.coefficient + (c.toNat - '0'.toNat) := by
      simp [digitsValue, Nat.ofDigitChars_cons]
    have hlt := Nat.lt_of_le_of_lt (le_ofDigitChars rest _) hn
    rw [absorb, if_neg (by omega), if_neg (ne_of_isDigit hc (by decide)), hnext, if_pos hlt,
      ih (fun d hd => hl d (List.mem_cons_of_mem _ hd)) (by simp only; omega) hn, List.length_cons]
    simp only [Prod.mk.injEq, Magnitude.mk.injEq, and_true, true_and]
    omega

/-- The digits of a number as they are written, with a point before those of the fraction. -/
def withPoint (whole fraction : List Char) : List Char :=
  whole ++ if fraction = [] then [] else '.' :: fraction

theorem splitSign_withPoint {whole fraction : List Char} (hw : whole ≠ [])
    (hd : ∀ c ∈ whole, c.isDigit) :
    splitSign (withPoint whole fraction) = (false, withPoint whole fraction) := by
  cases whole with
  | nil => exact (hw rfl).elim
  | cons c rest =>
    have hc := hd c (List.mem_cons_self ..)
    have hminus := ne_of_isDigit hc (d := '-') (by decide)
    have hplus := ne_of_isDigit hc (d := '+') (by decide)
    rw [withPoint, List.cons_append]
    unfold splitSign
    split <;> simp_all

theorem takeWhile_withPoint {whole fraction : List Char} (hd : ∀ c ∈ whole, c.isDigit) :
    (withPoint whole fraction).takeWhile isDigitOrSeparator = whole := by
  rw [withPoint, List.takeWhile_append_of_pos fun c hc => by simp [isDigitOrSeparator, hd c hc]]
  split <;> simp [isDigitOrSeparator]

theorem dropWhile_withPoint {whole fraction : List Char} (hd : ∀ c ∈ whole, c.isDigit) :
    (withPoint whole fraction).dropWhile isDigitOrSeparator =
      if fraction = [] then [] else '.' :: fraction := by
  rw [withPoint, List.dropWhile_append_of_pos fun c hc => by simp [isDigitOrSeparator, hd c hc]]
  split <;> simp [isDigitOrSeparator]

theorem ofPlain?_withPoint {text whole fraction : List Char} {negative : Bool}
    (htext : splitSign text = (negative, withPoint whole fraction)) (hw : whole ≠ [])
    (hd : ∀ c ∈ whole ++ fraction, c.isDigit) (hs : fraction.length ≤ 28)
    (hn : digitsValue (whole ++ fraction) < coefficientBound) :
    ofPlain? text =
      Magnitude.toDecimal? negative ⟨digitsValue (whole ++ fraction), fraction.length⟩ := by
  have hdw : ∀ c ∈ whole, c.isDigit := fun c hc => hd c (List.mem_append_left _ hc)
  have hdf : ∀ c ∈ fraction, c.isDigit := fun c hc => hd c (List.mem_append_right _ hc)
  have hhead : ((whole ++ fraction).head?.any Char.isDigit) = true := by
    cases whole with
    | nil => exact (hw rfl).elim
    | cons c rest => exact hdw c (List.mem_cons_self ..)
  have hvalue : digitsValue (whole ++ fraction) =
      Nat.ofDigitChars 10 fraction (digitsValue whole) := by
    rw [digitsValue, Nat.ofDigitChars_append]
    rfl
  rw [hvalue] at hn ⊢
  have hlt : digitsValue whole < coefficientBound :=
    Nat.lt_of_le_of_lt (le_ofDigitChars fraction _) hn
  have hall : fraction.all isDigitOrSeparator = true :=
    List.all_eq_true.2 fun c hc => by simp [isDigitOrSeparator, hdf c hc]
  have habsorb := Magnitude.absorb_digits (m := ⟨digitsValue whole, 0⟩) hdf (by simpa using hs) hn
  rw [Nat.zero_add] at habsorb
  have hread : (do
      guard (fraction.all isDigitOrSeparator)
      guard ((whole ++ fraction).head?.any Char.isDigit)
      guard (digitsValue whole < coefficientBound)
      let absorbed := Magnitude.absorb ⟨digitsValue whole, 0⟩ fraction
      (← absorbed.1.roundBy? absorbed.2).toDecimal? negative) =
        Magnitude.toDecimal? negative
          ⟨Nat.ofDigitChars 10 fraction (digitsValue whole), fraction.length⟩ := by
    rw [habsorb]
    simp only [guard, hall, hhead, hlt, ↓reduceIte]
    rfl
  simp only [ofPlain?, htext, takeWhile_withPoint hdw, dropWhile_withPoint hdw,
    List.filter_eq_self.2 hdw]
  cases fraction with
  | nil => exact hread
  | cons c rest => exact hread

/-- The digits of a number parted before the last `scale` of them. What stands before is a single zero
or does not start with a zero. -/
theorem exists_withPoint (scale n : Nat) : ∃ whole fraction, whole ≠ [] ∧ fraction.length = scale ∧
    whole ++ fraction = padded (scale + 1) n ∧ (whole.head? = some '0' → whole = ['0']) ∧
    (padded (scale + 1) n).take ((padded (scale + 1) n).length - scale) ++
        (if scale = 0 then []
          else '.' :: (padded (scale + 1) n).drop ((padded (scale + 1) n).length - scale)) =
      withPoint whole fraction := by
  have hlength := length_padded (scale + 1) n
  have hzero : (padded (scale + 1) n).head? = some '0' →
      (padded (scale + 1) n).length = scale + 1 := by
    intro h
    rcases Nat.lt_or_ge (scale + 1) (Nat.toDigits 10 n).length with hlong | hshort
    · rw [padded, Nat.sub_eq_zero_of_le (Nat.le_of_lt hlong)] at h
      have hone := congrArg List.length (toDigits_eq_zero h)
      simp only [List.length_singleton] at hone
      omega
    · simp only [padded, List.length_append, List.length_replicate]
      omega
  generalize padded (scale + 1) n = digits at hlength hzero
  refine ⟨digits.take (digits.length - scale), digits.drop (digits.length - scale), ?_, ?_,
    List.take_append_drop .., ?_, ?_⟩
  · rw [← List.length_pos_iff, List.length_take]
    omega
  · rw [List.length_drop]
    omega
  · intro h
    have hpos : digits.length - scale ≠ 0 := by omega
    rw [List.head?_take, if_neg hpos] at h
    obtain ⟨rest, rfl⟩ := List.head?_eq_some_iff.1 h
    have hone : ('0' :: rest).length - scale = 1 := by
      have := hzero h
      omega
    rw [hone]
    rfl
  · have hnil : digits.drop (digits.length - scale) = [] ↔ scale = 0 := by
      rw [← List.length_eq_zero_iff, List.length_drop]
      omega
    simp only [withPoint, hnil]

theorem chars_eq (a : Decimal) : ∃ whole fraction, whole ≠ [] ∧ fraction.length = a.scale ∧
    whole ++ fraction = padded (a.scale + 1) a.coefficient ∧
    a.chars = (if a.negative then ['-'] else []) ++ withPoint whole fraction := by
  obtain ⟨whole, fraction, hw, hscale, hdigits, -, hpoint⟩ := exists_withPoint a.scale a.coefficient
  refine ⟨whole, fraction, hw, hscale, hdigits, ?_⟩
  rw [chars, hpoint]
  split <;> rfl

theorem ofText?_toText (a : Decimal) : ofText? a.toText = some a.withoutZeroSign := by
  obtain ⟨whole, fraction, hw, hscale, hdigits, hchars⟩ := a.chars_eq
  have hd : ∀ c ∈ whole ++ fraction, c.isDigit := by
    rw [hdigits]
    exact fun c hc => isDigit_of_mem_padded hc
  have hvalue : digitsValue (whole ++ fraction) = a.coefficient := by
    rw [hdigits, digitsValue_padded]
  have hsign : splitSign a.chars = (a.negative, withPoint whole fraction) := by
    rw [hchars]
    cases a.negative with
    | false => exact splitSign_withPoint hw fun c hc => hd c (List.mem_append_left _ hc)
    | true => rfl
  have hplain : ofPlain? a.chars = some a.withoutZeroSign := by
    rw [ofPlain?_withPoint hsign hw hd (hscale ▸ a.scale_le) (hvalue ▸ a.coefficient_lt), hvalue,
      hscale]
    exact mk?_self a.withoutZeroSign
  rw [ofText?, toText, String.toList_ofList, ofChars?, hplain]
  rfl

theorem head?_chars (a : Decimal) : ∃ c, a.chars.head? = some c ∧ (c = '-' ↔ a.negative = true) := by
  obtain ⟨whole, fraction, hw, -, hdigits, hchars⟩ := a.chars_eq
  rw [hchars]
  cases a.negative with
  | true => exact ⟨'-', rfl, by simp⟩
  | false =>
    obtain ⟨c, rest, rfl⟩ := List.exists_cons_of_ne_nil hw
    have hmem : c ∈ padded (a.scale + 1) a.coefficient := hdigits ▸ List.mem_cons_self ..
    have hc : c ≠ '-' := ne_of_isDigit (isDigit_of_mem_padded hmem) (by decide)
    exact ⟨c, rfl, by simpa using hc⟩

theorem toText_ne_empty (a : Decimal) : a.toText ≠ "" := by
  intro hempty
  obtain ⟨c, hc, -⟩ := a.head?_chars
  have hnil : a.chars = [] := String.ofList_eq_empty_iff.1 hempty
  simp [hnil] at hc

theorem toText_inj {a b : Decimal} : a.toText = b.toText ↔ a = b := by
  refine ⟨fun h => ?_, congrArg toText⟩
  have hunsigned : a.withoutZeroSign = b.withoutZeroSign :=
    Option.some.inj (by rw [← ofText?_toText, h, ofText?_toText])
  have hnegative : a.negative = b.negative := by
    obtain ⟨c, ha, hc⟩ := a.head?_chars
    obtain ⟨d, hb, hd⟩ := b.head?_chars
    rw [String.ofList_inj.1 h, hb] at ha
    obtain rfl := Option.some.inj ha
    exact Bool.eq_iff_iff.2 (hc.symm.trans hd)
  cases a
  cases b
  simp_all [withoutZeroSign]

end Decimal

end MarketFees
