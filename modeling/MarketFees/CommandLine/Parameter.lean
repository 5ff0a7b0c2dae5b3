import MarketFees.CommandLine.Number
import MarketFees.Time.Reader

namespace MarketFees.CommandLine

inductive Command where
  /-- Makes an empty ledger. -/
  | create
  /-- Loads a dataset into a ledger. -/
  | load
  /-- Reports on a ledger. -/
  | report
  deriving DecidableEq, Repr

namespace Command

def name : Command → String
  | .create => "init"
  | .load => "import"
  | .report => "run"

def ofName? (name : String) : Option Command :=
  [create, load, report].find? (·.name == name)

end Command

inductive Parameter where
  | config
  | ledger
  | file
  | startAt
  | endAt
  | distributor
  | cycle
  | producer
  | fee
  | feeOwner
  | noSummary
  | format
  | help
  | version
  deriving DecidableEq, Repr

namespace Parameter

/-- The name that follows two dashes. -/
def name : Parameter → String
  | .config => "config"
  | .ledger => "db"
  | .file => ""
  | .startAt => "from"
  | .endAt => "to"
  | .distributor => "distributor"
  | .cycle => "order-cycle"
  | .producer => "producer"
  | .fee => "fee"
  | .feeOwner => "fee-owner"
  | .noSummary => "no-summary"
  | .format => "format"
  | .help => "help"
  | .version => "version"

/-- The letter that follows one dash. -/
def letter? : Parameter → Option Char
  | .format => some 'f'
  | .help => some 'h'
  | .version => some 'V'
  | _ => none

/-- What messages call the value, where there is one. -/
def valueName? : Parameter → Option String
  | .config => some "CONFIG"
  | .ledger => some "DB"
  | .file => some "FILE"
  | .startAt => some "FROM"
  | .endAt => some "TO"
  | .distributor => some "DISTRIBUTORS"
  | .cycle => some "ORDER_CYCLES"
  | .producer => some "PRODUCERS"
  | .fee => some "FEES"
  | .feeOwner => some "FEE_OWNERS"
  | .noSummary => none
  | .format => some "FORMAT"
  | .help => none
  | .version => none

/-- What messages call the parameter. -/
def label (p : Parameter) : String :=
  match p, p.valueName? with
  | .file, _ => "<FILE>"
  | _, some value => "--" ++ p.name ++ " <" ++ value ++ ">"
  | _, none => "--" ++ p.name

/-- The parameters with dashes of a command, or before one. -/
def all : Option Command → List Parameter
  | none => [config, help, version]
  | some .create => [config, ledger, help]
  | some .load => [config, ledger, help]
  | some .report => [config, ledger, startAt, endAt, distributor, cycle, producer, fee, feeOwner,
    noSummary, format, help]

end Parameter

/-- Why a text is no value of its parameter. -/
inductive ValueError where
  | empty
  | number (cause : NumberError)
  | date (cause : TimeError)
  | choice
  deriving DecidableEq, Repr

/-- What is wrong with the arguments. -/
inductive ArgumentError where
  | nothing
  | missingCommand
  | unknownCommand (text : String)
  | unexpected (text : String)
  | unexpectedValue (p : Parameter) (text : String)
  | missing (p : Parameter)
  | missingValue (p : Parameter)
  | invalidValue (p : Parameter) (text : String) (cause : ValueError)
  | repeated (p : Parameter)
  deriving DecidableEq, Repr

namespace ArgumentError

def invalidValueMessage (p : Parameter) (text : String) (cause : ValueError) : String :=
  let value := "error: invalid value '" ++ text ++ "' for '" ++ p.label ++ "'"
  match cause with
  | .empty => "error: a value is required for '" ++ p.label ++ "' but none was supplied"
  | .number cause => value ++ ": " ++ cause.message
  | .date cause => value ++ ": invalid date '" ++ text ++ "': " ++ cause.message
  | .choice => value ++ "\n  [possible values: text, json]"

def message : ArgumentError → String
  | .nothing => "fee-report - Enterprise fee and tax reports by producer"
  | .missingCommand => "error: 'fee-report' requires a subcommand but one was not provided"
  | .unknownCommand text => "error: unrecognized subcommand '" ++ text ++ "'"
  | .unexpected text => "error: unexpected argument '" ++ text ++ "' found"
  | .unexpectedValue p text =>
    "error: unexpected value '" ++ text ++ "' for '" ++ p.label ++ "' found; no more were expected"
  | .missing p =>
    "error: the following required arguments were not provided:\n  " ++ p.label
  | .missingValue p => invalidValueMessage p "" .empty
  | .invalidValue p text cause => invalidValueMessage p text cause
  | .repeated p => "error: the argument '" ++ p.label ++ "' cannot be used multiple times"

end ArgumentError

end MarketFees.CommandLine
