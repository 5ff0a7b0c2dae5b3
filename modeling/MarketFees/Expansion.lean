import MarketFees.Environment
import MarketFees.Text.Alphanumeric

namespace MarketFees

namespace Expansion

/-- Part of a text: a character that stands for itself, or a reference to a variable. -/
inductive Piece where
  | char (c : Char)
  | reference (name : String)
  deriving DecidableEq, Repr

def isNameChar (c : Char) : Bool :=
  Text.isAlphanumeric c || c == '_'

theorem length_dropWhile_le {p : Char → Bool} {l : List Char} : (l.dropWhile p).length ≤ l.length :=
  (List.dropWhile_sublist p).length_le

/-- The parts of a text in turn. A name in braces ends at the first closing brace, or with the text; a
dollar sign that no name follows stands for itself. -/
def pieces : List Char → List Piece
  | [] => []
  | '$' :: '\x7b' :: rest =>
    have : (rest.dropWhile (· != '\x7d')).length ≤ rest.length := length_dropWhile_le
    .reference (.ofList (rest.takeWhile (· != '\x7d'))) ::
      pieces ((rest.dropWhile (· != '\x7d')).drop 1)
  | '$' :: rest =>
    have : (rest.dropWhile isNameChar).length ≤ rest.length := length_dropWhile_le
    let name := rest.takeWhile isNameChar
    if name.isEmpty then .char '$' :: pieces rest
    else .reference (.ofList name) :: pieces (rest.dropWhile isNameChar)
  | c :: rest => .char c :: pieces rest
termination_by text => text.length

/-- The variables that a text refers to, from the left. -/
def references (text : String) : List String :=
  (pieces text.toList).filterMap fun
    | .char _ => none
    | .reference name => some name

/-- What a part stands for, or the name of the variable that is not set. -/
def Piece.value (env : Environment) : Piece → Except String (List Char)
  | .char c => .ok [c]
  | .reference name => (env.value? name).elim (.error name) (.ok ∘ String.toList)

end Expansion

/-- The text with the values of its references, or the first variable that is not set. -/
def Environment.expand (env : Environment) (text : String) : Except String String := do
  let parts ← (Expansion.pieces text.toList).mapM (·.value env)
  return .ofList parts.flatten

end MarketFees
