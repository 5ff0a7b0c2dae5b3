import MarketFees.Id

namespace MarketFees

/-- Why a text is no 64-bit number. -/
inductive NumberError where
  | empty
  | invalidDigit
  | tooLarge
  | tooSmall
  deriving DecidableEq, Repr

namespace NumberError

def message : NumberError → String
  | .empty => "cannot parse integer from empty string"
  | .invalidDigit => "invalid digit found in string"
  | .tooLarge => "number too large to fit in target type"
  | .tooSmall => "number too small to fit in target type"

/-- Reads digits after the number `n`, in which a number below zero goes down. -/
def scanDigits (negative : Bool) : (n : Int) → List Char → Except NumberError Int
  | n, [] => .ok n
  | n, c :: rest =>
    if c.isDigit then
      let digit : Int := c.toNat - '0'.toNat
      let n := if negative then 10 * n - digit else 10 * n + digit
      if n < Int64.minValue.toInt then .error .tooSmall
      else if Int64.maxValue.toInt < n then .error .tooLarge
      else scanDigits negative n rest
    else .error .invalidDigit

def scan : List Char → Except NumberError Int
  | [] => .error .empty
  | ['-'] => .error .invalidDigit
  | ['+'] => .error .invalidDigit
  | '-' :: digits => scanDigits true 0 digits
  | '+' :: digits => scanDigits false 0 digits
  | digits => scanDigits false 0 digits

end NumberError

/-- The id that an argument names. -/
def Id.ofArgument {entity : Entity} (text : String) : Except NumberError (Id entity) :=
  (NumberError.scan text.toList).map fun n => ⟨Int64.ofInt n⟩

end MarketFees
