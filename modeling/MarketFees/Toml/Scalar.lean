import MarketFees.Binary64
import MarketFees.Time.Reader
import MarketFees.Toml.Basic

namespace MarketFees.Toml.Reader

open Text

/-- Digits with single underscores between some of them, without the underscores. -/
def grouped? (isDigit : Char → Bool) : List Char → Option (List Char)
  | [] => none
  | [c] => if isDigit c then some [c] else none
  | c :: '_' :: rest => if isDigit c then (grouped? isDigit rest).map (c :: ·) else none
  | c :: rest => if isDigit c then (grouped? isDigit rest).map (c :: ·) else none

/-- Decimal digits that do not start with a zero, or one zero. -/
def whole? (text : List Char) : Option (List Char) :=
  (grouped? Char.isDigit text).filter fun digits => digits.length = 1 ∨ digits.head? ≠ some '0'

/-- An integer in digits of this base. -/
def based? (base : Nat) (text : List Char) : Option Int :=
  (grouped? (fun c => (hexDigit? c).any (· < base)) text).map fun digits =>
    (digits.foldl (fun n c => base * n + (hexDigit? c).getD 0) 0 : Nat)

/-- An integer of 128 bits, with a sign or without one. -/
def integer? (text : List Char) : Option Int :=
  let value := match text with
    | '0' :: 'x' :: rest => based? 16 rest
    | '0' :: 'o' :: rest => based? 8 rest
    | '0' :: 'b' :: rest => based? 2 rest
    | text =>
      let (negative, digits) := splitSign text
      (whole? digits).map fun digits =>
        if negative then -(digitsValue digits : Int) else digitsValue digits
  value.filter fun n => -powerOfTwo 127 ≤ n ∧ n < powerOfTwo 128

/-- Whether `digits * 10 ^ shift` rounds to a finite binary number. -/
def isFinite (digits : Nat) (shift : Int) : Bool :=
  let places := (Nat.toDigits 10 digits).length + shift
  digits = 0 ∨ places < 0 ∨
    places ≤ 310 ∧ (Binary64.ofQuotient? (digits * powerOfTen shift.toNat) (powerOfTen (-shift).toNat)).isSome

def exponent? (text : List Char) : Option Int :=
  let (negative, digits) := splitSign text
  (grouped? Char.isDigit digits).map fun digits =>
    if negative then -(digitsValue digits : Int) else digitsValue digits

def isDigitOrUnderscore (c : Char) : Bool :=
  c.isDigit || c == '_'

/-- A number after its sign, with a fraction, an exponent or both. -/
def isFloatSize (text : List Char) : Bool :=
  let (whole, text) := text.span isDigitOrUnderscore
  let (fraction, text) := match text with
    | '.' :: rest =>
      let (digits, rest) := rest.span isDigitOrUnderscore
      (grouped? Char.isDigit digits, rest)
    | text => (some [], text)
  let exponent := match text with
    | [] => some (0, !(fraction == some []))
    | c :: rest => if c == 'e' || c == 'E' then (exponent? rest).map (·, true) else none
  match whole? whole, fraction, exponent with
  | some whole, some fraction, some (exponent, marked) =>
    marked && isFinite (digitsValue (whole ++ fraction)) (exponent - fraction.length)
  | _, _, _ => false

def isFloat (text : List Char) : Bool :=
  let size := (splitSign text).2
  size == ['i', 'n', 'f'] || size == ['n', 'a', 'n'] || isFloatSize size

def dateLayout : List Time.Item :=
  [.fixed .year, .mark ['-'], .fixed .month, .mark ['-'], .fixed .day]

/-- A time of day to the minute, or to the second and its fraction. -/
def clockLayouts : List (List Time.Item) :=
  let minutes := [.fixed .hour, .mark [':'], .fixed .minute]
  [minutes, minutes ++ [.mark [':'], .fixed .second, .fraction]]

/-- The parts that a text in a layout holds. -/
def parts? (layout : List Time.Item) (text : List Char) : Option Time.Parts :=
  (Time.scanAll .empty layout text).toOption

/-- A date, on its own or before other items. -/
def isDated (layout : List Time.Item) (text : List Char) : Bool :=
  (parts? (dateLayout ++ layout) text).any fun parts =>
    parts.date.IsValid ∧ parts.offset.natAbs < 86400

/-- A date, a time of day, or a date and a time of day with or without an offset. -/
def isTime (text : List Char) : Bool :=
  let separator : Time.Item := .mark ['T', 't', ' ']
  isDated [] text || clockLayouts.any fun clock =>
    (parts? clock text).isSome || isDated (separator :: clock) text ||
      isDated (separator :: clock ++ [.zone .strict]) text

def isScalarChar (c : Char) : Bool :=
  c.isAlphanum || ['+', '-', '_', '.', ':'].contains c

/-- The longest run of characters of a scalar, which may go on after a space between a date and a
time of day. -/
def token (text : List Char) : List Char × List Char :=
  let (first, rest) := text.span isScalarChar
  match rest with
  | ' ' :: c :: more =>
    if isDated [] first && c.isDigit then
      let (second, rest) := (c :: more).span isScalarChar
      (first ++ ' ' :: second, rest)
    else (first, rest)
  | _ => (first, rest)

/-- The value that a token spells. -/
def scalarOf? (token : List Char) : Option Toml :=
  if token = ['t', 'r', 'u', 'e'] then some (.boolean true)
  else if token = ['f', 'a', 'l', 's', 'e'] then some (.boolean false)
  else if isTime token then some (.time (.ofList token))
  else if isFloat token then some (.float (.ofList token))
  else (integer? token).map .integer

def scalar (text : List Char) : Option (Toml × List Char) :=
  let (token, rest) := token text
  (scalarOf? token).map (·, rest)

end MarketFees.Toml.Reader
