import MarketFees.Json.Basic

namespace MarketFees.Json.Reader

open Text

def isBlank (c : Char) : Bool :=
  c == ' ' || c == '\n' || c == '\t' || c == '\r'

def skipBlanks (text : List Char) : List Char :=
  text.dropWhile isBlank

/-- The character that a backslash and this letter stand for. -/
def escaped? : Char → Option Char
  | '"' => some '"'
  | '\\' => some '\\'
  | '/' => some '/'
  | 'b' => some '\x08'
  | 'f' => some '\x0c'
  | 'n' => some '\n'
  | 'r' => some '\r'
  | 't' => some '\t'
  | _ => none

/-- The code points of a string up to its closing quote, after the ones already read, last first. An
escape may name half a surrogate pair. -/
def codePoints : (seen : List Nat) → List Char → Option (List Nat × List Char)
  | _, [] => none
  | seen, '"' :: rest => some (seen.reverse, rest)
  | seen, '\\' :: 'u' :: a :: b :: c :: d :: rest =>
    match hexValue? [a, b, c, d] with
    | some n => codePoints (n :: seen) rest
    | none => none
  | seen, '\\' :: c :: rest =>
    match escaped? c with
    | some c => codePoints (c.toNat :: seen) rest
    | none => none
  | seen, c :: rest => if c.toNat < 0x20 then none else codePoints (c.toNat :: seen) rest

def isHighHalf (n : Nat) : Bool :=
  0xD800 ≤ n && n < 0xDC00

def isLowHalf (n : Nat) : Bool :=
  0xDC00 ≤ n && n < 0xE000

/-- Joins the halves of surrogate pairs, after the characters already joined, last first. A half
without its partner spells no text. -/
def joinHalves : (seen : List Char) → List Nat → Option (List Char)
  | seen, [] => some seen.reverse
  | seen, high :: low :: rest =>
    if isHighHalf high then
      if isLowHalf low then
        joinHalves (Char.ofNat (0x10000 + (high - 0xD800) * 0x400 + (low - 0xDC00)) :: seen) rest
      else none
    else if isLowHalf high then none
    else joinHalves (Char.ofNat high :: seen) (low :: rest)
  | seen, [n] =>
    if isHighHalf n || isLowHalf n then none else some (Char.ofNat n :: seen).reverse

/-- A string after its opening quote: the text, where there is one, and what follows. -/
def string (text : List Char) : Option (Option String × List Char) :=
  (codePoints [] text).map fun (points, rest) =>
    ((joinHalves [] points).map String.ofList, rest)

/-- Digits, at least one. -/
def digits (text : List Char) : Option (List Char × List Char) :=
  let run := text.takeWhile Char.isDigit
  if run.isEmpty then none else some (run, text.dropWhile Char.isDigit)

/-- Digits that do not start with a zero, or one zero. -/
def wholePart (text : List Char) : Option (List Char × List Char) :=
  match text with
  | '0' :: rest => if (rest.head?.any Char.isDigit) then none else some (['0'], rest)
  | _ => digits text

def fractionPart (text : List Char) : Option (List Char × List Char) :=
  match text with
  | '.' :: rest => digits rest
  | _ => some ([], text)

def exponentPart (text : List Char) : Option (Option Int × List Char) :=
  let signed (rest : List Char) : Option (Option Int × List Char) :=
    match rest with
    | '-' :: rest => (digits rest).map fun (run, rest) => (some (-(digitsValue run : Int)), rest)
    | '+' :: rest => (digits rest).map fun (run, rest) => (some (digitsValue run : Int), rest)
    | _ => (digits rest).map fun (run, rest) => (some (digitsValue run : Int), rest)
  match text with
  | 'e' :: rest => signed rest
  | 'E' :: rest => signed rest
  | _ => some (none, text)

def number (text : List Char) : Option (Number × List Char) := do
  let (negative, text) := match text with
    | '-' :: rest => (true, rest)
    | _ => (false, text)
  let (whole, text) ← wholePart text
  let (fraction, text) ← fractionPart text
  let (exponent, text) ← exponentPart text
  return (⟨negative, digitsValue (whole ++ fraction), fraction.length, exponent⟩, text)

/-- A value without brackets. -/
def scalar : List Char → Option (Json × List Char)
  | 'n' :: 'u' :: 'l' :: 'l' :: rest => some (.null, rest)
  | 't' :: 'r' :: 'u' :: 'e' :: rest => some (.bool true, rest)
  | 'f' :: 'a' :: 'l' :: 's' :: 'e' :: rest => some (.bool false, rest)
  | '"' :: rest => (string rest).map fun (text, rest) => (text.elim .halfPair .string, rest)
  | text => (number text).map fun (n, rest) => (.number n, rest)

/-- The items of an array, from the first on, each read by `item`; `fuel` bounds their number. -/
def items (item : List Char → Option (Json × List Char)) :
    (fuel : Nat) → List Char → Option (List Json × List Char)
  | 0, _ => none
  | fuel + 1, text => do
    let (first, text) ← item (skipBlanks text)
    match skipBlanks text with
    | ',' :: text =>
      let (others, text) ← items item fuel text
      return (first :: others, text)
    | ']' :: text => return ([first], text)
    | _ => none

/-- A field: a key, a colon and a value. -/
def field (value : List Char → Option (Json × List Char)) (text : List Char) :
    Option ((Option String × Json) × List Char) :=
  match skipBlanks text with
  | '"' :: text => do
    let (key, text) ← string text
    match skipBlanks text with
    | ':' :: text =>
      let (content, text) ← value (skipBlanks text)
      return ((key, content), text)
    | _ => none
  | _ => none

/-- The fields of an object, from the first on; `fuel` bounds their number. -/
def fields (value : List Char → Option (Json × List Char)) :
    (fuel : Nat) → List Char → Option (List (Option String × Json) × List Char)
  | 0, _ => none
  | fuel + 1, text => do
    let (first, text) ← field value text
    match skipBlanks text with
    | ',' :: text =>
      let (others, text) ← fields value fuel text
      return (first :: others, text)
    | '\x7d' :: text => return ([first], text)
    | _ => none

/-- The object of these fields, if every key is a text. -/
def objectOf (fields : List (Option String × Json)) : Json :=
  match fields.mapM fun (key, content) => key.map (·, content) with
  | some fields => .object fields
  | none => .halfPair

/-- A value that opens at most `depth` brackets at a time; `fuel` bounds the length of its lists. -/
def value (fuel : Nat) : (depth : Nat) → List Char → Option (Json × List Char)
  | 0, text => scalar text
  | depth + 1, '[' :: text =>
    match skipBlanks text with
    | ']' :: text => some (.array [], text)
    | text => (items (value fuel depth) fuel text).map fun (items, rest) => (.array items, rest)
  | depth + 1, '\x7b' :: text =>
    match skipBlanks text with
    | '\x7d' :: text => some (.object [], text)
    | text => (fields (value fuel depth) fuel text).map fun (fields, rest) => (objectOf fields, rest)
  | _ + 1, text => scalar text

end MarketFees.Json.Reader

namespace MarketFees.Json

/-- The value that a text spells, with blanks around it. No value opens more brackets than its text has
characters. -/
def ofChars? (text : List Char) : Option Json :=
  match Reader.value text.length text.length (Reader.skipBlanks text) with
  | some (value, rest) => if (Reader.skipBlanks rest).isEmpty then some value else none
  | none => none

def ofText? (text : String) : Option Json :=
  ofChars? text.toList

end MarketFees.Json
