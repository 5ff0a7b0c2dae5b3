import MarketFees.Power
import MarketFees.Text.Blank
import MarketFees.Text.Digits
import MarketFees.Time.Instant

namespace MarketFees

/-- Why a text is no date or timestamp. -/
inductive TimeError where
  | outOfRange
  | invalid
  | tooShort
  | tooLong
  deriving DecidableEq, Repr

def TimeError.message : TimeError → String
  | .outOfRange => "input is out of range"
  | .invalid => "input contains invalid characters"
  | .tooShort => "premature end of input"
  | .tooLong => "trailing input"

namespace Time

open Text

/-- What has been read of a date, a time of day and an offset. -/
structure Parts where
  year : Int
  month : Nat
  day : Nat
  hour : Nat
  minute : Nat
  second : Nat
  nanos : Nat
  offset : Int

namespace Parts

def empty : Parts :=
  ⟨0, 0, 0, 0, 0, 0, 0, 0⟩

def date (parts : Parts) : Date :=
  ⟨parts.year, parts.month, parts.day⟩

def clock (parts : Parts) : Clock :=
  ⟨parts.hour, parts.minute, parts.second, parts.nanos⟩

end Parts

inductive Field where
  | year
  | month
  | day
  | hour
  | minute
  | second
  deriving DecidableEq, Repr

namespace Field

def width : Field → Nat
  | .year => 4
  | _ => 2

/-- The least and the greatest number of the field. -/
def range : Field → Int × Int
  | .year => (Int32.minValue.toInt, Int32.maxValue.toInt)
  | .month => (1, 12)
  | .day => (1, 31)
  | .hour => (0, 23)
  | .minute => (0, 59)
  | .second => (0, 60)

def Holds (field : Field) (n : Int) : Prop :=
  field.range.1 ≤ n ∧ n ≤ field.range.2

instance (field : Field) (n : Int) : Decidable (field.Holds n) :=
  inferInstanceAs (Decidable (_ ∧ _))

def put (field : Field) (n : Int) (parts : Parts) : Parts :=
  match field with
  | .year => { parts with year := n }
  | .month => { parts with month := n.toNat }
  | .day => { parts with day := n.toNat }
  | .hour => { parts with hour := n.toNat }
  | .minute => { parts with minute := n.toNat }
  | .second => { parts with second := n.toNat }

/-- Stores a number, if it is in the range of the field. -/
def set? (field : Field) (n : Int) (parts : Parts) : Except TimeError Parts :=
  if field.Holds n then .ok (field.put n parts) else .error .outOfRange

end Field

/-- How the offset from universal time is written. -/
inductive Zone where
  /-- The letter `Z`, or hours, a colon and minutes, less than a day. -/
  | strict
  /-- The letter `Z`, the word `UTC`, or hours and minutes with colons and blanks between them or none. -/
  | relaxed
  /-- As `relaxed` without `UTC`; the minutes may be missing. -/
  | permissive
  deriving DecidableEq, Repr

inductive Item where
  /-- A field in exactly its width. -/
  | fixed (field : Field)
  /-- A field after blanks, in at most its width. A year with a sign has any number of digits. -/
  | loose (field : Field)
  /-- One of these characters. -/
  | mark (choices : List Char)
  | blanks
  /-- A point and digits, the first nine of which count; or nothing. -/
  | fraction
  | zone (form : Zone)

/-- From `least` to `most` digits. -/
def scanNumber (least most : Nat) (text : List Char) : Except TimeError (Nat × List Char) :=
  let run := (text.take most).takeWhile Char.isDigit
  if least ≤ run.length then .ok (digitsValue run, text.drop run.length)
  else if text.length < least then .error .tooShort
  else .error .invalid

/-- A year with or without a sign. -/
def scanYear : List Char → Except TimeError (Int × List Char)
  | '-' :: text => (scanNumber 1 text.length text).map fun (n, text) => (-(n : Int), text)
  | '+' :: text => (scanNumber 1 text.length text).map fun (n, text) => ((n : Int), text)
  | text => (scanNumber 1 4 text).map fun (n, text) => ((n : Int), text)

def scanLoose (field : Field) (text : List Char) : Except TimeError (Int × List Char) :=
  match field with
  | .year => scanYear (skipBlanks text)
  | _ => (scanNumber 1 field.width (skipBlanks text)).map fun (n, text) => ((n : Int), text)

/-- The nanoseconds of digits after the point. -/
def scanFraction (text : List Char) : Except TimeError (Nat × List Char) :=
  (scanNumber 1 9 text).map fun (n, rest) =>
    (n * powerOfTen (9 - (text.length - rest.length)), rest.dropWhile Char.isDigit)

/-- The separator between the hours and minutes of an offset. -/
def scanColon (zone : Zone) (text : List Char) : Except TimeError (List Char) :=
  match zone, text with
  | .strict, ':' :: text => .ok text
  | .strict, [] => .error .tooShort
  | .strict, _ => .error .invalid
  | _, text => .ok (text.dropWhile fun c => c == ':' || isBlank c)

/-- The minutes of an offset. -/
def scanOffsetMinutes (zone : Zone) : List Char → Except TimeError (Nat × List Char)
  | a :: b :: text =>
    if a.isDigit ∧ b.isDigit then
      if a ≤ '5' then .ok (digitsValue [a, b], text) else .error .outOfRange
    else .error .invalid
  | [] => if zone = .permissive then .ok (0, []) else .error .tooShort
  | [_] => .error .tooShort

/-- The hours and minutes of an offset after its sign, in seconds. -/
def scanOffset (zone : Zone) : List Char → Except TimeError (Nat × List Char)
  | a :: b :: text =>
    if a.isDigit ∧ b.isDigit then do
      let (minutes, text) ← scanOffsetMinutes zone (← scanColon zone text)
      return (3600 * digitsValue [a, b] + 60 * minutes, text)
    else .error .invalid
  | _ => .error .tooShort

def scanSignedOffset (zone : Zone) : List Char → Except TimeError (Int × List Char)
  | '+' :: text => (scanOffset zone text).map fun (n, text) => ((n : Int), text)
  | '-' :: text => (scanOffset zone text).map fun (n, text) => (-(n : Int), text)
  | '\u2212' :: text => (scanOffset zone text).map fun (n, text) => (-(n : Int), text)
  | [] => .error .tooShort
  | _ => .error .invalid

def startsWithUtc (text : List Char) : Bool :=
  (text.take 3).map Char.toUpper == ['U', 'T', 'C']

def scanZone (zone : Zone) (text : List Char) : Except TimeError (Int × List Char) :=
  let text := if zone = .strict then text else skipBlanks text
  if zone = .relaxed ∧ startsWithUtc text then .ok (0, text.drop 3)
  else match text with
    | 'Z' :: text => .ok (0, text)
    | 'z' :: text => .ok (0, text)
    | text => scanSignedOffset zone text

/-- Reads an item. -/
def Item.scan (item : Item) (parts : Parts) (text : List Char) : Except TimeError (Parts × List Char) :=
  match item with
  | .fixed field => do
    let (n, text) ← scanNumber field.width field.width text
    return (← field.set? n parts, text)
  | .loose field => do
    let (n, text) ← scanLoose field text
    return (← field.set? n parts, text)
  | .mark choices =>
    match text with
    | [] => .error .tooShort
    | c :: text => if choices.contains c then .ok (parts, text) else .error .invalid
  | .blanks => .ok (parts, skipBlanks text)
  | .fraction =>
    match text with
    | '.' :: text => (scanFraction text).map fun (nanos, text) => ({ parts with nanos }, text)
    | text => .ok (parts, text)
  | .zone form => do
    let (offset, text) ← scanZone form text
    return ({ parts with offset }, text)

/-- Reads the items of a layout in turn, up to the end of the text. -/
def scanAll (parts : Parts) : List Item → List Char → Except TimeError Parts
  | [], [] => .ok parts
  | [], _ :: _ => .error .tooLong
  | item :: layout, text => do
    let (parts, text) ← item.scan parts text
    scanAll parts layout text

/-- Year, month and day with dashes between them. -/
def dateLayout : List Item :=
  [.loose .year, .mark ['-'], .loose .month, .mark ['-'], .loose .day]

/-- A timestamp in the strict form of internet timestamps. -/
def strictLayout : List Item :=
  [.fixed .year, .mark ['-'], .fixed .month, .mark ['-'], .fixed .day, .mark ['T', 't', ' '],
    .fixed .hour, .mark [':'], .fixed .minute, .mark [':'], .fixed .second, .fraction, .zone .strict]

/-- A timestamp in a document, where numbers need no zeros in front and blanks may stand around. -/
def relaxedLayout : List Item :=
  [.loose .year, .blanks, .mark ['-'], .loose .month, .blanks, .mark ['-'], .loose .day,
    .mark ['T', 't', ' '], .loose .hour, .blanks, .mark [':'], .loose .minute, .blanks, .mark [':'],
    .loose .second, .fraction, .blanks, .zone .relaxed, .blanks]

/-- A stored timestamp up to its offset, after this separator between date and time. -/
def storedLayout (separator : Item) : List Item :=
  dateLayout ++ [separator, .loose .hour, .mark [':'], .loose .minute, .mark [':'], .loose .second,
    .fraction]

/-- The instant of the parts, with the offset less than a day. -/
def Parts.instant (parts : Parts) : Except TimeError Instant :=
  match Instant.ofCivil? parts.date parts.clock parts.offset with
  | some t => if parts.offset.natAbs < 86400 then .ok t else .error .outOfRange
  | none => .error .outOfRange

/-- The instant that a text in this layout names. -/
def read (layout : List Item) (text : String) : Except TimeError Instant := do
  (← scanAll .empty layout text.toList).instant

/-- The start of the day, or another time of it, on a bare date. -/
def readDate (clock : Clock) (text : String) : Except TimeError Instant := do
  let parts ← scanAll .empty dateLayout text.toList
  match Instant.ofCivil? parts.date clock 0 with
  | some t => .ok t
  | none => .error .outOfRange

end Time

namespace Instant

/-- A timestamp in a document. -/
def ofDocument? (text : String) : Option Instant :=
  (Time.read Time.relaxedLayout text).toOption

/-- A timestamp in a ledger, with an offset or without one. The eleventh byte says what separates date
and time. -/
def ofStored? (text : String) : Option Instant :=
  let separator : Time.Item :=
    if text.toUTF8.data[10]? = some 'T'.toUInt8 then .mark ['T'] else .blanks
  let layout := Time.storedLayout separator
  (Time.read (layout ++ [.zone .permissive]) text).toOption <|> (Time.read layout text).toOption

end Instant

end MarketFees
