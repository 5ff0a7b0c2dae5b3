import MarketFees.CommandLine.Parameter
import MarketFees.Filters
import MarketFees.Report.Document

namespace MarketFees

namespace Instant

/-- A timestamp, or a date at this time of day. -/
def ofArgument (clock : Clock) (text : String) : Except TimeError Instant :=
  match Time.read Time.strictLayout text with
  | .ok t => .ok t
  | .error _ => Time.readDate clock text

end Instant

namespace CommandLine

/-- The values of the parameters. -/
structure Arguments where
  config : Option String
  ledger : Option String
  file : Option String
  filters : Filters
  noSummary : Bool
  format : Option OutputFormat
  deriving DecidableEq, Repr

namespace Arguments

def empty : Arguments :=
  ⟨none, none, none, .none, false, none⟩

/-- Whether a parameter that has one value has it. -/
def has (a : Arguments) : Parameter → Bool
  | .config => a.config.isSome
  | .ledger => a.ledger.isSome
  | .file => a.file.isSome
  | .startAt => a.filters.startAt.isSome
  | .endAt => a.filters.endAt.isSome
  | .noSummary => a.noSummary
  | .format => a.format.isSome
  | _ => false

def path (text : String) : Except ValueError String :=
  if text.isEmpty then .error .empty else .ok text

def format? (text : String) : Except ValueError OutputFormat :=
  if text.isEmpty then .error .empty else (OutputFormat.ofName? text).elim (.error .choice) .ok

def date (clock : Clock) (text : String) : Except ValueError Instant :=
  (Instant.ofArgument clock text).mapError .date

def id {entity : Entity} (text : String) : Except ValueError (Id entity) :=
  (Id.ofArgument text).mapError .number

/-- The arguments with one more value. -/
def setValue (a : Arguments) (p : Parameter) (text : String) : Except ValueError Arguments := do
  match p with
  | .config => return { a with config := some (← path text) }
  | .ledger => return { a with ledger := some (← path text) }
  | .file => return { a with file := some (← path text) }
  | .startAt => return { a with filters.startAt := some (← date .startOfDay text) }
  | .endAt => return { a with filters.endAt := some (← date .endOfDay text) }
  | .distributor => return { a with filters.distributors := a.filters.distributors ++ [← id text] }
  | .cycle => return { a with filters.cycles := a.filters.cycles ++ [← id text] }
  | .producer => return { a with filters.producers := a.filters.producers ++ [← id text] }
  | .fee => return { a with filters.fees := a.filters.fees ++ [← id text] }
  | .feeOwner => return { a with filters.feeOwners := a.filters.feeOwners ++ [← id text] }
  | .format => return { a with format := some (← format? text) }
  | .noSummary => return { a with noSummary := true }
  | .help => return a
  | .version => return a

def accept (a : Arguments) (p : Parameter) (text : String) : Except ArgumentError Arguments :=
  if a.has p then .error (.repeated p) else (a.setValue p text).mapError (.invalidValue p text)

end Arguments

/-- Why reading ends early: something is asked of the program itself, or there is a mistake. -/
inductive Stop where
  | help
  | version
  | mistake (cause : ArgumentError)
  deriving DecidableEq, Repr

instance : MonadLift (Except ArgumentError) (Except Stop) :=
  ⟨Except.mapError .mistake⟩

/-- An argument by its dashes. -/
inductive Token where
  /-- Two dashes, after which no argument is read as a parameter. -/
  | separator
  | long (name : String) (value : Option String)
  | short (letter : Char) (rest : List Char)
  | plain
  deriving DecidableEq, Repr

def Token.ofArgument (text : String) : Token :=
  match text.toList with
  | ['-', '-'] => .separator
  | '-' :: '-' :: rest =>
    let value := match rest.dropWhile (· != '=') with
      | [] => none
      | _ :: value => some (String.ofList value)
    .long (.ofList (rest.takeWhile (· != '='))) value
  | '-' :: letter :: rest => .short letter rest
  | _ => .plain

/-- Where reading is: the values so far, and a parameter whose value is still to be checked, or still
to come. -/
structure Scan where
  arguments : Arguments
  pending : Option (Parameter × Option String)

namespace Scan

def start : Scan :=
  ⟨.empty, none⟩

/-- Whether the next argument is the value of an option, if it has no dashes. -/
def awaitsValue (s : Scan) : Bool :=
  s.pending.any (·.2.isNone)

/-- Checks the value of the pending parameter. -/
def settle (s : Scan) : Except ArgumentError Scan :=
  match s.pending with
  | none => .ok s
  | some (p, none) => .error (.missingValue p)
  | some (p, some text) => (s.arguments.accept p text).map (⟨·, none⟩)

/-- Reads a parameter without a value. -/
def flag (s : Scan) (p : Parameter) : Except Stop Scan := do
  let s ← s.settle
  match p with
  | .help => .error .help
  | .version => .error .version
  | p => return ⟨← s.arguments.accept p "", none⟩

/-- Reads a parameter with the value that is attached to it. -/
def parameter (s : Scan) (p : Parameter) (attached : Option String) : Except Stop Scan := do
  match p.valueName?, attached with
  | some _, some text => return ⟨← (← s.settle).arguments.accept p text, none⟩
  | some _, none => return { ← s.settle with pending := some (p, none) }
  | none, some text => .error (.mistake (.unexpectedValue p text))
  | none, none => s.flag p

def long (s : Scan) (command : Option Command) (name : String) (attached : Option String) :
    Except Stop Scan :=
  match (Parameter.all command).find? (·.name == name) with
  | some p => s.parameter p attached
  | none => .error (.mistake (.unexpected ("--" ++ name)))

/-- Reads a parameter with one letter, to which its value can be attached with an equals sign or
without one. -/
def short (s : Scan) (command : Option Command) (letter : Char) (rest : List Char) :
    Except Stop Scan :=
  match (Parameter.all command).find? (·.letter? == some letter) with
  | some p =>
    if p.valueName?.isNone then s.flag p
    else match rest with
      | [] => s.parameter p none
      | '=' :: value => s.parameter p (some (.ofList value))
      | value => s.parameter p (some (.ofList value))
  | none => .error (.mistake (.unexpected (.ofList ['-', letter])))

/-- Whether the file that is to be loaded has been named. -/
def hasFile (s : Scan) : Bool :=
  s.arguments.has .file || s.pending.any (·.1 == .file)

/-- Reads an argument that is no parameter. -/
def plain (s : Scan) (command : Option Command) (text : String) : Except ArgumentError Scan :=
  match command with
  | none =>
    if text == "help" || (Command.ofName? text).isSome then .error (.unexpected text)
    else .error (.unknownCommand text)
  | some .load =>
    if s.hasFile then .error (.unexpected text)
    else s.settle.map ({ · with pending := some (.file, some text) })
  | some _ => .error (.unexpected text)

/-- Reads the arguments of a command, or the ones up to the name of a command, which is left over with
what follows it. -/
def run (command : Option Command) : (separated : Bool) → Scan → List String →
    Except Stop (Scan × List String)
  | _, s, [] => return (s, [])
  | true, s, text :: rest => do
    run command true (← s.plain command text) rest
  | false, s, text :: rest =>
    let isCommand := command.isNone && (text == "help" || (Command.ofName? text).isSome)
    if isCommand && !s.awaitsValue then .ok (s, text :: rest)
    else match Token.ofArgument text with
      | .separator => run command true s rest
      | .long name attached => do run command false (← s.long command name attached) rest
      | .short letter letters => do run command false (← s.short command letter letters) rest
      | .plain =>
        match s.pending with
        | some (p, none) => run command false { s with pending := some (p, some text) } rest
        | _ => do run command false (← s.plain command text) rest

end Scan

/-- What the program is asked to do. -/
structure Request where
  command : Command
  arguments : Arguments
  deriving DecidableEq, Repr

/-- What is asked by the words after `help`. -/
def helpOn : List String → Stop
  | [] => .help
  | name :: rest =>
    if name == "help" || (Command.ofName? name).isSome then
      match rest with
      | [] => .help
      | word :: _ => .mistake (.unknownCommand word)
    else .mistake (.unknownCommand name)

/-- The request that the arguments make. -/
def Request.ofArguments (arguments : List String) : Except Stop Request := do
  match ← Scan.run none false .start arguments with
  | (outer, []) =>
    let outer ← outer.settle
    .error (.mistake (if outer.arguments.config.isSome then .missingCommand else .nothing))
  | (outer, name :: rest) =>
    match Command.ofName? name with
    | none => .error (helpOn rest)
    | some command =>
      let (inner, _) ← Scan.run (some command) false .start rest
      let inner ← inner.settle
      if command = .load ∧ ¬inner.arguments.has .file then
        .error (.mistake (.missing .file))
      let outer ← outer.settle
      let config := inner.arguments.config <|> outer.arguments.config
      return ⟨command, { inner.arguments with config }⟩

end CommandLine

end MarketFees
