import MarketFees.Binary64
import MarketFees.Ledger.Basic

namespace MarketFees

/-- A content that is put into a cell. -/
inductive Content where
  | null
  | integer (value : Int64)
  | text (value : String)
  deriving DecidableEq, Repr

namespace NumberCell

def isSpace (c : Char) : Bool :=
  ['\t', '\n', '\x0b', '\x0c', '\r', ' '].contains c

/-- The cell of the number `digits * 10 ^ exponent`, as the binary number that it reads as. -/
def ofScaled (negative : Bool) (digits : Nat) (exponent : Int) : NumberCell :=
  if digits = 0 ∨ exponent < -400 - (Nat.toDigits 10 digits).length then .integer 0
  else if 400 < exponent then .other
  else
    match Binary64.ofQuotient? (digits * powerOfTen exponent.toNat) (powerOfTen (-exponent).toNat) with
    | none => .other
    | some x =>
      let (num, den) := x.quotient
      let value : Int := if negative then -(num / den : Nat) else (num / den : Nat)
      if num % den ≠ 0 then .other
      else if num / den < Int64.maxValue.toInt then .integer (Int64.ofInt value)
      else .binary value

/-- The digits and exponent of a number with a point or an exponent. -/
def scaled? (text : List Char) : Option (Nat × Int) := do
  let whole := text.takeWhile Char.isDigit
  let text := text.dropWhile Char.isDigit
  let (fraction, text) := match text with
    | '.' :: rest => (rest.takeWhile Char.isDigit, rest.dropWhile Char.isDigit)
    | _ => ([], text)
  guard (whole ++ fraction ≠ [])
  let exponent ← match text with
    | [] => some 0
    | mark :: rest => if mark = 'e' ∨ mark = 'E' then Text.int? rest else none
  return (Text.digitsValue (whole ++ fraction), exponent - fraction.length)

/-- A text in a column of numbers is the integer that it spells, in any notation. -/
def ofText (text : String) : NumberCell :=
  let trimmed := ((text.toList.dropWhile isSpace).reverse.dropWhile isSpace).reverse
  match (Text.int? trimmed).bind word? with
  | some value => .integer value
  | none =>
    let (negative, unsigned) := Text.splitSign trimmed
    match scaled? unsigned with
    | some (digits, exponent) => ofScaled negative digits exponent
    | none => .other

end NumberCell

namespace Content

def numberCell : Content → Except StoreError NumberCell
  | .null => .error (.table .missingValue)
  | .integer value => .ok (.integer value)
  | .text value => .ok (.ofText value)

def textCell? : Content → Option String
  | .null => none
  | .integer value => some (Text.ofInt value.toInt)
  | .text value => some value

def textCell (c : Content) : Except StoreError String :=
  c.textCell?.elim (.error (.table .missingValue)) .ok

/-- An id is an integer. -/
def id (c : Content) : Except StoreError Int64 :=
  match c with
  | .null => .error (.table .missingValue)
  | c =>
    match c.numberCell with
    | .ok (.integer value) => .ok value
    | _ => .error (.table .unreadableCell)

end Content

/-- A change of one column of a row. -/
abbrev Setter (ρ : Type) := Content → ρ → Except StoreError ρ

def EnterpriseRow.setter? : String → Option (Setter EnterpriseRow)
  | "name" => some fun c row => do return { row with name := ← c.textCell }
  | "charges_sales_tax" => some fun c row => do return { row with chargesSalesTax := ← c.numberCell }
  | _ => none

def CycleRow.setter? : String → Option (Setter CycleRow)
  | "name" => some fun c row => do return { row with name := ← c.textCell }
  | "orders_open_at" => some fun c row => .ok { row with opensAt := c.textCell? }
  | _ => none

def FeeRow.setter? : String → Option (Setter FeeRow)
  | "name" => some fun c row => do return { row with name := ← c.textCell }
  | "fee_type" => some fun c row => do return { row with feeType := ← c.textCell }
  | "owner_id" => some fun c row => do return { row with owner := ← c.numberCell }
  | _ => none

def TaxRateRow.setter? : String → Option (Setter TaxRateRow)
  | "name" => some fun c row => do return { row with name := ← c.textCell }
  | "amount" => some fun c row => do return { row with amount := ← c.textCell }
  | "tax_category" => some fun c row => .ok { row with category := c.textCell? }
  | _ => none

def OrderRow.setter? : String → Option (Setter OrderRow)
  | "number" => some fun c row => do return { row with number := ← c.textCell }
  | "distributor_id" => some fun c row => do return { row with distributor := ← c.numberCell }
  | "order_cycle_id" => some fun c row => do return { row with cycle := ← c.numberCell }
  | "completed_at" => some fun c row => .ok { row with completedAt := c.textCell? }
  | _ => none

def LineItemRow.setter? : String → Option (Setter LineItemRow)
  | "order_id" => some fun c row => do return { row with order := ← c.numberCell }
  | "supplier_id" => some fun c row => do return { row with supplier := ← c.numberCell }
  | _ => none

def AdjustmentRow.setter? : String → Option (Setter AdjustmentRow)
  | "order_id" => some fun c row => do return { row with order := ← c.numberCell }
  | "amount" => some fun c row => do return { row with amount := ← c.textCell }
  | "originator_type" => some fun c row => do return { row with originatorType := ← c.textCell }
  | "originator_id" => some fun c row => do return { row with originator := ← c.numberCell }
  | "adjustable_type" => some fun c row => do return { row with adjustableType := ← c.textCell }
  | "adjustable_id" => some fun c row => do return { row with adjustable := ← c.numberCell }
  | "included" => some fun c row => do return { row with included := ← c.numberCell }
  | "label" => some fun c row => do return { row with label := ← c.textCell }
  | _ => none

namespace Table

/-- Changes a cell of the row with this id and says how many rows were changed. The id itself may be
changed to one that is not in use. -/
def overwrite (t : Table (Id entity) ρ) (setter? : String → Option (Setter ρ)) (column : String)
    (id : Id entity) (content : Content) : Except StoreError (Table (Id entity) ρ × Nat) :=
  match t.get? id with
  | none =>
    if column = "id" ∨ (setter? column).isSome then .ok (t, 0)
    else .error (.table .noSuchColumn)
  | some row =>
    if column = "id" then do
      let target : Id entity := ⟨← content.id⟩
      if target ≠ id ∧ (t.get? target).isSome then .error (.table .repeatedId)
      else return ((t.erase id).put target row, 1)
    else
      match setter? column with
      | none => .error (.table .noSuchColumn)
      | some set => do return (t.put id (← set content row), 1)

end Table

namespace Ledger

/-- Changes the stored version. -/
def overwriteVersion (l : Ledger) (content : Content) : Except StoreError (Ledger × Nat) :=
  match l.version with
  | none => .ok (l, 0)
  | some _ => do return ({ l with version := some (← content.textCell) }, 1)

/-- Changes a cell of a table, and says how many rows were changed. Of the table `meta` that is the
version, whatever column and id are given. -/
def overwrite (l : Ledger) (table column : String) (id : Int64) (content : Content) :
    Except StoreError (Ledger × Nat) := do
  match table with
  | "meta" => l.overwriteVersion content
  | "enterprises" =>
    let (t, n) ← l.enterprises.overwrite EnterpriseRow.setter? column ⟨id⟩ content
    return ({ l with enterprises := t }, n)
  | "order_cycles" =>
    let (t, n) ← l.cycles.overwrite CycleRow.setter? column ⟨id⟩ content
    return ({ l with cycles := t }, n)
  | "enterprise_fees" =>
    let (t, n) ← l.fees.overwrite FeeRow.setter? column ⟨id⟩ content
    return ({ l with fees := t }, n)
  | "tax_rates" =>
    let (t, n) ← l.taxRates.overwrite TaxRateRow.setter? column ⟨id⟩ content
    return ({ l with taxRates := t }, n)
  | "orders" =>
    let (t, n) ← l.orders.overwrite OrderRow.setter? column ⟨id⟩ content
    return ({ l with orders := t }, n)
  | "line_items" =>
    let (t, n) ← l.lineItems.overwrite LineItemRow.setter? column ⟨id⟩ content
    return ({ l with lineItems := t }, n)
  | "adjustments" =>
    let (t, n) ← l.adjustments.overwrite AdjustmentRow.setter? column ⟨id⟩ content
    return ({ l with adjustments := t }, n)
  | _ => .error (.table .noSuchColumn)

end Ledger

end MarketFees
