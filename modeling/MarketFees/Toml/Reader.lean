import MarketFees.Toml.Entries
import MarketFees.Toml.Quoted
import MarketFees.Toml.Scalar

namespace MarketFees.Toml.Reader

def skipSpaces (text : List Char) : List Char :=
  text.dropWhile isSpace

/-- What follows spaces, line breaks and comments; `fuel` bounds the number of comments. -/
def skipGap : (fuel : Nat) → List Char → List Char
  | 0, text => text
  | fuel + 1, text =>
    match skipLines text with
    | '#' :: rest => skipGap fuel (rest.dropWhile isPlain)
    | text => text

/-- What follows the end of a line, before which a comment may stand. -/
def endOfLine (text : List Char) : Option (List Char) :=
  let text := match skipSpaces text with
    | '#' :: rest => rest.dropWhile isPlain
    | text => text
  if text.isEmpty then some [] else lineBreak? text

def isBareKeyChar (c : Char) : Bool :=
  c.isAlphanum || c == '_' || c == '-'

/-- One part of a key. -/
def simpleKey : List Char → Option (String × List Char)
  | '"' :: rest => basic rest.length [] rest
  | '\'' :: rest => literal rest
  | text =>
    let (name, rest) := text.span isBareKeyChar
    if name.isEmpty then none else some (.ofList name, rest)

/-- The parts of a key with dots between them; `fuel` bounds their number. -/
def keyParts : (fuel : Nat) → List Char → Option (List String × List Char)
  | 0, _ => none
  | fuel + 1, text => do
    let (first, text) ← simpleKey (skipSpaces text)
    match skipSpaces text with
    | '.' :: text =>
      let (others, text) ← keyParts fuel text
      return (first :: others, text)
    | text => return ([first], text)

def key : List Char → Option (List String × List Char) :=
  keyParts 80

/-- A key, an equals sign and a value, with what `skip` passes over around the sign. -/
def keyValue (value : List Char → Option (Toml × List Char)) (skip : List Char → List Char)
    (text : List Char) : Option ((List String × Toml) × List Char) := do
  let (key, text) ← key text
  match skip text with
  | '=' :: text =>
    let (content, text) ← value (skip text)
    return ((key, content), text)
  | _ => none

/-- The items of an array after its opening bracket; `fuel` bounds their number. -/
def items (value : List Char → Option (Toml × List Char)) :
    (fuel : Nat) → List Char → Option (List Toml × List Char)
  | 0, _ => none
  | fuel + 1, text =>
    match skipGap text.length text with
    | ']' :: text => some ([], text)
    | text => do
      let (first, text) ← value text
      match skipGap text.length text with
      | ',' :: text =>
        let (others, text) ← items value fuel text
        return (first :: others, text)
      | ']' :: text => return ([first], text)
      | _ => none

/-- The entries of a table in braces, from where one or the closing brace stands, with the ones before
it; `fuel` bounds their number. -/
def members (value : List Char → Option (Toml × List Char)) :
    (fuel : Nat) → Entries → List Char → Option (Entries × List Char)
  | 0, _, _ => none
  | fuel + 1, entries, text =>
    match skipGap text.length text with
    | '\x7d' :: text => some (entries, text)
    | text => do
      let ((key, content), text) ← keyValue value (skipGap text.length) text
      let entries ← entries.assign content key
      match skipGap text.length text with
      | ',' :: text => members value fuel entries text
      | '\x7d' :: text => return (entries, text)
      | _ => none

/-- A value that opens at most `depth` brackets at a time; `fuel` bounds the length of its lists. -/
def value (fuel : Nat) : (depth : Nat) → List Char → Option (Toml × List Char)
  | depth + 1, '[' :: text =>
    (items (value fuel depth) fuel text).map fun (items, rest) => (.array items, rest)
  | depth + 1, '\x7b' :: text =>
    (members (value fuel depth) fuel [] text).map fun (entries, rest) =>
      (.table (completeAll entries), rest)
  | _, text => if text.head?.any fun c => c == '"' || c == '\'' then
      (string text).map fun (text, rest) => (.string text, rest)
    else scalar text

/-- What has been read of a document: its entries, and the path of the last header. -/
structure State where
  entries : Entries
  path : List String

/-- A header after its opening brackets, up to the closing ones. -/
def header (closing : List Char) (text : List Char) : Option (List String × List Char) := do
  let (path, text) ← key text
  if text.take closing.length = closing then some (path, text.drop closing.length) else none

/-- Goes on under the header with this path, whose table `start` makes. -/
def State.enter (state : State) (start : String → Entries → Option Entries) (path : List String) :
    Option State := do
  let entries ← state.entries.within (start (← path.getLast?)) path.dropLast
  return ⟨entries, path⟩

/-- What a line holds before its end. -/
def statement (state : State) : List Char → Option (State × List Char)
  | [] => some (state, [])
  | '#' :: text => some (state, '#' :: text)
  | '\n' :: text => some (state, '\n' :: text)
  | '\r' :: text => some (state, '\r' :: text)
  | '[' :: '[' :: text => do
    let (path, text) ← header [']', ']'] text
    return (← state.enter Entries.openItem path, text)
  | '[' :: text => do
    let (path, text) ← header [']'] text
    return (← state.enter Entries.openTable path, text)
  | text => do
    let ((key, content), text) ← keyValue (value text.length 80) skipSpaces text
    let entries ← state.entries.within (·.assign content key) state.path
    return ({ state with entries }, text)

/-- The lines of a document; `fuel` bounds their number. -/
def lines : (fuel : Nat) → State → List Char → Option Entries
  | 0, _, _ => none
  | fuel + 1, state, text => do
    let (state, text) ← statement state (skipSpaces text)
    match ← endOfLine text with
    | [] => return state.entries
    | text => lines fuel state text

end MarketFees.Toml.Reader

namespace MarketFees.Toml

/-- The table that a document holds. A byte order mark at its start is passed over. -/
def ofText? (text : String) : Option (List (String × Toml)) :=
  let text := match text.toList with
    | '\ufeff' :: rest => rest
    | text => text
  (Reader.lines (text.length + 1) ⟨[], []⟩ text).map completeAll

end MarketFees.Toml
