import MarketFees.Dataset.Basic
import MarketFees.Decimal.Arithmetic

namespace MarketFees

/-- Why a file cannot be read or made. -/
inductive FileError where
  | notFound
  | isDirectory
  | notDirectory
  | exists
  | nameTooLong
  | nullCharacter
  | notText
  deriving DecidableEq, Repr

def FileError.message : FileError → String
  | .notFound => "No such file or directory (os error 2)"
  | .isDirectory => "Is a directory (os error 21)"
  | .notDirectory => "Not a directory (os error 20)"
  | .exists => "File exists (os error 17)"
  | .nameTooLong => "File name too long (os error 36)"
  | .nullCharacter => "file name contained an unexpected NUL byte"
  | .notText => "stream did not contain valid UTF-8"

/-- Why a table of a ledger cannot be opened, read or written. -/
inductive TableError where
  | cannotOpen
  | notALedger
  | readOnly
  | unreadableCell
  | missingValue
  | noSuchColumn
  | repeatedId
  deriving DecidableEq, Repr

def TableError.message : TableError → String
  | .cannotOpen => "unable to open the file"
  | .notALedger => "file is not a ledger"
  | .readOnly => "file may only be read"
  | .unreadableCell => "stored value does not have the type of its column"
  | .missingValue => "a value is required"
  | .noSuchColumn => "no such column"
  | .repeatedId => "id is in use"

/-- The columns whose texts have to spell something. -/
inductive TextColumn where
  | adjustmentAmount
  | taxRateAmount
  | originatorType
  | adjustableType
  | feeType
  | version
  deriving DecidableEq, Repr

def TextColumn.name : TextColumn → String
  | .adjustmentAmount => "adjustments.amount"
  | .taxRateAmount => "tax_rates.amount"
  | .originatorType => "adjustments.originator_type"
  | .adjustableType => "adjustments.adjustable_type"
  | .feeType => "enterprise_fees.fee_type"
  | .version => "meta.version"

inductive StoreError where
  | table (cause : TableError)
  | document
  | file (cause : FileError)
  | invalidDecimal (column : TextColumn) (text : String)
  | invalidValue (column : TextColumn) (text : String)
  | schemaVersion (found : Int)
  | orderMismatch (stray : Dataset.Stray)
  deriving DecidableEq, Repr

/-- The version of the tables that this library reads and writes. -/
def schemaVersion : Int :=
  1

def StoreError.message : StoreError → String
  | .table cause => "SQLite error: " ++ cause.message
  | .document => "JSON error: the document does not fit"
  | .file cause => "IO error: " ++ cause.message
  | .invalidDecimal column text => "Invalid decimal in " ++ column.name ++ ": " ++ text
  | .invalidValue column text => "Invalid value in " ++ column.name ++ ": " ++ text
  | .schemaVersion found =>
    "Ledger schema version " ++ Text.ofInt found ++ " does not match expected " ++
      Text.ofInt MarketFees.schemaVersion
  | .orderMismatch stray =>
    "Adjustment " ++ stray.adjustment.toText ++ " names order " ++ stray.declared.toText ++
      " but belongs to order " ++ stray.order.toText

/-- The operation whose result is too large for a decimal. -/
inductive Overflow where
  | addition
  | subtraction
  deriving DecidableEq, Repr

def Overflow.message : Overflow → String
  | .addition => "Addition overflowed"
  | .subtraction => "Subtraction overflowed"

/-- Why a sum or a report fails: on an error of the store, or on an overflow. -/
inductive Fault where
  | store (cause : StoreError)
  | overflow (operation : Overflow)
  deriving DecidableEq, Repr

def Fault.message : Fault → String
  | .store cause => cause.message
  | .overflow operation => operation.message

/-- What a store reads is part of what a report does. -/
instance : MonadLift (Except StoreError) (Except Fault) :=
  ⟨Except.mapError .store⟩

namespace Decimal

def sub (a b : Decimal) : Except Fault Decimal :=
  (sub? a b).elim (.error (.overflow .subtraction)) .ok

def sum (amounts : List Decimal) : Except Fault Decimal :=
  (sum? amounts).elim (.error (.overflow .addition)) .ok

end Decimal

/-- A dataset whose adjustments name the orders that they are listed in. -/
def Dataset.validate (d : Dataset) : Except StoreError Unit :=
  match d.stray? with
  | some stray => .error (.orderMismatch stray)
  | none => .ok ()

end MarketFees
