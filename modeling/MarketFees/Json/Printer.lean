import MarketFees.Json.Basic

namespace MarketFees.Json

inductive Layout where
  | compact
  | indented
  deriving DecidableEq, Repr

namespace Printer

/-- What a line break inside `depth` brackets is written as. -/
def lineBreak (layout : Layout) (depth : Nat) : List Char :=
  match layout with
  | .compact => []
  | .indented => '\n' :: List.replicate (2 * depth) ' '

def colon : Layout → List Char
  | .compact => [':']
  | .indented => [':', ' ']

def escape (c : Char) : List Char :=
  if c = '"' then ['\\', '"']
  else if c = '\\' then ['\\', '\\']
  else if c = '\x08' then ['\\', 'b']
  else if c = '\x0c' then ['\\', 'f']
  else if c = '\n' then ['\\', 'n']
  else if c = '\r' then ['\\', 'r']
  else if c = '\t' then ['\\', 't']
  else if c.toNat < 0x20 then
    ['\\', 'u', '0', '0', Nat.digitChar (c.toNat / 16), Nat.digitChar (c.toNat % 16)]
  else [c]

def quoted (text : String) : List Char :=
  '"' :: text.toList.flatMap escape ++ ['"']

/-- Parts between brackets, each on a line of its own, with commas between them. -/
def bracketed (layout : Layout) (depth : Nat) (opening closing : Char) :
    List (List Char) → List Char
  | [] => [opening, closing]
  | parts =>
    opening :: lineBreak layout (depth + 1) ++
      List.intercalate (',' :: lineBreak layout (depth + 1)) parts ++
      lineBreak layout depth ++ [closing]

mutual

/-- A value inside `depth` brackets. -/
def value (layout : Layout) (depth : Nat) : Json → List Char
  | .null => ['n', 'u', 'l', 'l']
  | .bool true => ['t', 'r', 'u', 'e']
  | .bool false => ['f', 'a', 'l', 's', 'e']
  | .number n => n.chars
  | .string text => quoted text
  | .array items => bracketed layout depth '[' ']' (values layout (depth + 1) items)
  | .object fields => bracketed layout depth '\x7b' '\x7d' (members layout (depth + 1) fields)
  | .halfPair => ['"', '\\', 'u', 'd', '8', '0', '0', '"']

def values (layout : Layout) (depth : Nat) : List Json → List (List Char)
  | [] => []
  | item :: rest => value layout depth item :: values layout depth rest

def members (layout : Layout) (depth : Nat) : List (String × Json) → List (List Char)
  | [] => []
  | (key, content) :: rest =>
    (quoted key ++ colon layout ++ value layout depth content) :: members layout depth rest

end

end Printer

def chars (layout : Layout) (j : Json) : List Char :=
  Printer.value layout 0 j

def toText (layout : Layout) (j : Json) : String :=
  String.ofList (j.chars layout)

end MarketFees.Json
