import Mathlib.Tactic.SplitIfs
import MarketFees.Json.Printer
import MarketFees.Json.Reader
import MarketFees.Proofs.DecimalText
import MarketFees.Proofs.Sequence

namespace MarketFees.Json

open Text Decimal

def powerChars : Option Int → List Char
  | none => []
  | some e => 'e' :: intChars e

theorem Number.chars_eq (n : Number) : ∃ whole fraction, whole ≠ [] ∧ fraction.length = n.places ∧
    whole ++ fraction = padded (n.places + 1) n.digits ∧ (whole.head? = some '0' → whole = ['0']) ∧
    n.chars = (if n.negative then ['-'] else []) ++ withPoint whole fraction ++
      powerChars n.exponent := by
  obtain ⟨whole, fraction, hne, hplaces, hdigits, hzero, hpoint⟩ :=
    exists_withPoint n.places n.digits
  refine ⟨whole, fraction, hne, hplaces, hdigits, hzero, ?_⟩
  rw [chars, hpoint]
  cases n.exponent <;> rfl

theorem Number.exists_chars_eq (n : Number) :
    ∃ c text, n.chars = c :: text ∧ (c = '-' ∨ c.isDigit) := by
  obtain ⟨whole, fraction, hne, -, hdigits, -, hchars⟩ := n.chars_eq
  obtain ⟨c, whole, rfl⟩ := List.exists_cons_of_ne_nil hne
  have hc : c.isDigit :=
    isDigit_of_mem_padded (hdigits ▸ List.mem_append_left _ (List.mem_cons_self ..))
  rw [hchars, withPoint]
  cases n.negative with
  | true => exact ⟨_, _, rfl, .inl rfl⟩
  | false => exact ⟨_, _, rfl, .inr hc⟩

/-- What may follow a number: nothing that would be part of it. -/
def Ends (rest : List Char) : Prop :=
  ∀ c ∈ rest.head?, c.isDigit = false ∧ c ≠ '.' ∧ c ≠ 'e' ∧ c ≠ 'E'

namespace Reader

variable {rest : List Char}

theorem digits_append {run : List Char} (hne : run ≠ []) (hd : ∀ c ∈ run, c.isDigit)
    (hrest : ∀ c ∈ rest.head?, c.isDigit = false) : digits (run ++ rest) = some (run, rest) := by
  simp [digits, takeWhile_run hd hrest, dropWhile_run hd hrest, hne]

theorem wholePart_append {run : List Char} (hne : run ≠ []) (hd : ∀ c ∈ run, c.isDigit)
    (hzero : run.head? = some '0' → run = ['0']) (hrest : ∀ c ∈ rest.head?, c.isDigit = false) :
    wholePart (run ++ rest) = some (run, rest) := by
  have hdigits := digits_append hne hd hrest
  cases run with
  | nil => exact (hne rfl).elim
  | cons c run =>
    by_cases hc : c = '0'
    · subst hc
      obtain rfl : run = [] := by simpa using hzero rfl
      cases rest with
      | nil => rfl
      | cons d rest => simp [wholePart, hrest d rfl]
    · rw [← hdigits, wholePart]
      simp [hc]

theorem fractionPart_append {run : List Char} (hd : ∀ c ∈ run, c.isDigit)
    (hrest : ∀ c ∈ rest.head?, c.isDigit = false ∧ c ≠ '.') :
    fractionPart ((if run = [] then [] else '.' :: run) ++ rest) = some (run, rest) := by
  split
  · next h =>
    subst h
    cases rest with
    | nil => rfl
    | cons c rest =>
      have := (hrest c rfl).2
      simp [fractionPart, this]
  · next h => exact digits_append h hd fun c hc => (hrest c hc).1

theorem digits_toDigits (n : Nat) (hrest : ∀ c ∈ rest.head?, c.isDigit = false) :
    digits (Nat.toDigits 10 n ++ rest) = some (Nat.toDigits 10 n, rest) :=
  digits_append Nat.toDigits_ne_nil
    (fun _ h => Nat.isDigit_of_mem_toDigits (by decide) (by decide) h) hrest

theorem exponentPart_append (exponent : Option Int) (hrest : Ends rest) :
    exponentPart (powerChars exponent ++ rest) = some (exponent, rest) := by
  have hdigits (n : Nat) := digits_toDigits n fun c hc => (hrest c hc).1
  cases exponent with
  | none =>
    cases rest with
    | nil => rfl
    | cons c rest =>
      obtain ⟨-, -, he, hE⟩ := hrest c rfl
      simp [powerChars, exponentPart, he, hE]
  | some e =>
    rw [powerChars, intChars]
    split
    · next h =>
      have habs : -(e.natAbs : Int) = e := by omega
      simp only [List.cons_append, exponentPart, hdigits, Option.map_some, digitsValue_toDigits, habs]
    · next h =>
      have habs : (e.natAbs : Int) = e := by omega
      have hread := hdigits e.natAbs
      have hvalue := digitsValue_toDigits e.natAbs
      obtain ⟨c, run, hrun, hc⟩ := exists_toDigits_eq e.natAbs
      have hminus := ne_of_isDigit hc (d := '-') (by decide)
      have hplus := ne_of_isDigit hc (d := '+') (by decide)
      rw [hrun] at hread hvalue ⊢
      rw [List.cons_append] at hread
      simp [exponentPart, hminus, hplus, hread, hvalue, habs]

theorem ends_powerChars (exponent : Option Int) (hrest : Ends rest) :
    ∀ c ∈ (powerChars exponent ++ rest).head?, c.isDigit = false ∧ c ≠ '.' := by
  intro c hc
  cases exponent with
  | none => exact ⟨(hrest c hc).1, (hrest c hc).2.1⟩
  | some e =>
    obtain rfl : 'e' = c := by simpa [powerChars] using hc
    decide

theorem number_chars (n : Number) (hrest : Ends rest) :
    number (n.chars ++ rest) = some (n, rest) := by
  obtain ⟨whole, fraction, hne, hplaces, hdigits, hzero, hchars⟩ := n.chars_eq
  have hd : ∀ c ∈ whole ++ fraction, c.isDigit := by
    rw [hdigits]
    exact fun c hc => isDigit_of_mem_padded hc
  have hdwhole : ∀ c ∈ whole, c.isDigit := fun c hc => hd c (List.mem_append_left _ hc)
  have hvalue : digitsValue (whole ++ fraction) = n.digits := by
    rw [hdigits, digitsValue_padded]
  have hpower := ends_powerChars n.exponent hrest
  generalize htail : (if fraction = [] then [] else '.' :: fraction) ++
    (powerChars n.exponent ++ rest) = tail
  have hwhole : wholePart (whole ++ tail) = some (whole, tail) := by
    refine wholePart_append hne hdwhole hzero fun c hc => ?_
    subst htail
    split at hc
    · exact (hpower c hc).1
    · obtain rfl : '.' = c := by simpa using hc
      decide
  have hfraction : fractionPart tail = some (fraction, powerChars n.exponent ++ rest) :=
    htail ▸ fractionPart_append (fun c hc => hd c (List.mem_append_right _ hc)) hpower
  have htext : n.chars ++ rest = (if n.negative then ['-'] else []) ++ (whole ++ tail) := by
    simp only [hchars, withPoint, ← htail, List.append_assoc]
  have hminus (text : List Char) : whole ++ tail ≠ '-' :: text := by
    obtain ⟨c, digits, rfl⟩ := List.exists_cons_of_ne_nil hne
    have := ne_of_isDigit (hdwhole c (List.mem_cons_self ..)) (d := '-') (by decide)
    simp [this]
  obtain ⟨negative, digits, places, exponent⟩ := n
  have hexponent := exponentPart_append exponent hrest
  simp only at hplaces hvalue hfraction htext
  rw [htext]
  cases negative with
  | true => simp [number, hwhole, hfraction, hexponent, hvalue, hplaces]
  | false => simp [number, hwhole, hfraction, hexponent, hvalue, hplaces]

theorem hexValue?_control {n : Nat} (h : n < 0x20) :
    hexValue? ['0', '0', Nat.digitChar (n / 16), Nat.digitChar (n % 16)] = some n := by
  revert n
  decide

theorem codePoints_escape (c : Char) (seen : List Nat) (rest : List Char) :
    codePoints seen (Printer.escape c ++ rest) = codePoints (c.toNat :: seen) rest := by
  rw [Printer.escape]
  split_ifs with hquote hslash hb hf hn hr ht hcontrol
  · simp [hquote, codePoints, escaped?]
  · simp [hslash, codePoints, escaped?]
  · simp [hb, codePoints, escaped?]
  · simp [hf, codePoints, escaped?]
  · simp [hn, codePoints, escaped?]
  · simp [hr, codePoints, escaped?]
  · simp [ht, codePoints, escaped?]
  · simp [codePoints, hexValue?_control hcontrol]
  · simp [codePoints, hslash, hcontrol]

theorem codePoints_flatMap (text : List Char) (seen : List Nat) (rest : List Char) :
    codePoints seen (text.flatMap Printer.escape ++ '"' :: rest) =
      some (seen.reverse ++ text.map Char.toNat, rest) := by
  induction text generalizing seen with
  | nil => simp [codePoints]
  | cons c text ih =>
    rw [List.flatMap_cons, List.append_assoc, codePoints_escape, ih]
    simp

theorem not_isHalf (c : Char) : isHighHalf c.toNat = false ∧ isLowHalf c.toNat = false := by
  have hvalid : c.toNat < 0xD800 ∨ 0xDFFF < c.toNat ∧ c.toNat < 0x110000 := c.valid
  simp only [isHighHalf, isLowHalf, Bool.and_eq_false_iff, decide_eq_false_iff_not]
  omega

theorem joinHalves_cons (c : Char) (seen : List Char) (points : List Nat) :
    joinHalves seen (c.toNat :: points) = joinHalves (c :: seen) points := by
  obtain ⟨hhigh, hlow⟩ := not_isHalf c
  cases points with
  | nil => simp [joinHalves, hhigh, hlow]
  | cons next points => simp [joinHalves, hhigh, hlow]

theorem joinHalves_toNat (text seen : List Char) :
    joinHalves seen (text.map Char.toNat) = some (seen.reverse ++ text) := by
  induction text generalizing seen with
  | nil => simp [joinHalves]
  | cons c text ih =>
    rw [List.map_cons, joinHalves_cons, ih]
    simp

theorem string_quoted (text : String) (rest : List Char) :
    string (text.toList.flatMap Printer.escape ++ '"' :: rest) = some (some text, rest) := by
  rw [string, codePoints_flatMap]
  simp [joinHalves_toNat]

end Reader

end MarketFees.Json
