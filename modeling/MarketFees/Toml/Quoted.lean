import MarketFees.Text.Digits

namespace MarketFees.Toml.Reader

open Text

/-- The characters that may stand in a line: all but control characters other than the tab. -/
def isPlain (c : Char) : Bool :=
  c == '\t' || (0x20 ≤ c.toNat && c.toNat != 0x7F)

def isSpace (c : Char) : Bool :=
  c == ' ' || c == '\t'

/-- What follows a line break. -/
def lineBreak? : List Char → Option (List Char)
  | '\n' :: rest => some rest
  | '\r' :: '\n' :: rest => some rest
  | _ => none

/-- What follows spaces and line breaks. -/
def skipLines : List Char → List Char
  | ' ' :: rest => skipLines rest
  | '\t' :: rest => skipLines rest
  | '\n' :: rest => skipLines rest
  | '\r' :: '\n' :: rest => skipLines rest
  | text => text

/-- The character with this code point in hexadecimal digits. -/
def charOf? (digits : List Char) : Option Char := do
  let n ← hexValue? digits
  if n.isValidChar then some (.ofNat n) else none

/-- The character that a backslash and this letter stand for. -/
def escaped? : Char → Option Char
  | '"' => some '"'
  | '\\' => some '\\'
  | 'b' => some '\x08'
  | 'e' => some '\x1b'
  | 'f' => some '\x0c'
  | 'n' => some '\n'
  | 'r' => some '\r'
  | 't' => some '\t'
  | _ => none

/-- An escape after its backslash: the character, and what follows. -/
def escape : List Char → Option (Char × List Char)
  | 'x' :: a :: b :: rest => (charOf? [a, b]).map (·, rest)
  | 'u' :: a :: b :: c :: d :: rest => (charOf? [a, b, c, d]).map (·, rest)
  | 'U' :: a :: b :: c :: d :: e :: f :: g :: h :: rest =>
    (charOf? [a, b, c, d, e, f, g, h]).map (·, rest)
  | c :: rest => (escaped? c).map (·, rest)
  | [] => none

/-- A string in double quotes after the opening one, from the characters already read, last first;
`fuel` bounds its length. -/
def basic : (fuel : Nat) → (seen : List Char) → List Char → Option (String × List Char)
  | _ + 1, seen, '"' :: rest => some (.ofList seen.reverse, rest)
  | fuel + 1, seen, '\\' :: rest => do
    let (c, rest) ← escape rest
    basic fuel (c :: seen) rest
  | fuel + 1, seen, c :: rest => if isPlain c then basic fuel (c :: seen) rest else none
  | _, _, _ => none

/-- A string in single quotes after the opening one. -/
def literal (text : List Char) : Option (String × List Char) :=
  let body := text.takeWhile (· != '\'')
  match text.dropWhile (· != '\'') with
  | _ :: rest => if body.all isPlain then some (.ofList body, rest) else none
  | [] => none

/-- The end of a string over several lines: three quotes, and up to two before them that belong to the
string. -/
def closing? (quote : Char) (text : List Char) : Option (List Char × List Char) :=
  let quotes := (text.take 5).takeWhile (· == quote)
  if 3 ≤ quotes.length then some (quotes.drop 3, text.drop quotes.length) else none

/-- What follows a backslash at the end of a line, where the next text stands. -/
def continuation? (text : List Char) : Option (List Char) :=
  (lineBreak? (text.dropWhile isSpace)).map skipLines

/-- A string over several lines in double quotes, as `basic` reads one in a line. -/
def basicLines : (fuel : Nat) → (seen : List Char) → List Char → Option (String × List Char)
  | 0, _, _ => none
  | fuel + 1, seen, text =>
    match closing? '"' text with
    | some (quotes, rest) => some (.ofList (seen.reverse ++ quotes), rest)
    | none =>
      match text with
      | '\\' :: rest =>
        match continuation? rest with
        | some rest => basicLines fuel seen rest
        | none => do
          let (c, rest) ← escape rest
          basicLines fuel (c :: seen) rest
      | '\r' :: '\n' :: rest => basicLines fuel ('\n' :: '\r' :: seen) rest
      | c :: rest => if c == '\n' || isPlain c then basicLines fuel (c :: seen) rest else none
      | [] => none

/-- A string over several lines in single quotes. -/
def literalLines : (fuel : Nat) → (seen : List Char) → List Char → Option (String × List Char)
  | 0, _, _ => none
  | fuel + 1, seen, text =>
    match closing? '\'' text with
    | some (quotes, rest) => some (.ofList (seen.reverse ++ quotes), rest)
    | none =>
      match text with
      | '\r' :: '\n' :: rest => literalLines fuel ('\n' :: '\r' :: seen) rest
      | c :: rest => if c == '\n' || isPlain c then literalLines fuel (c :: seen) rest else none
      | [] => none

/-- A text without a line break at its start. -/
def dropLineBreak (text : List Char) : List Char :=
  (lineBreak? text).getD text

/-- A string of any kind, with its opening quotes. -/
def string : List Char → Option (String × List Char)
  | '"' :: '"' :: '"' :: rest => basicLines rest.length [] (dropLineBreak rest)
  | '"' :: rest => basic rest.length [] rest
  | '\'' :: '\'' :: '\'' :: rest => literalLines rest.length [] (dropLineBreak rest)
  | '\'' :: rest => literal rest
  | _ => none

end MarketFees.Toml.Reader
