import MarketFees.CommandLine.Arguments
import MarketFees.CommandLine.Host
import MarketFees.CommandLine.Path
import MarketFees.Dataset.Document
import MarketFees.Ledger.Read
import MarketFees.Report.Build
import MarketFees.Settings

namespace MarketFees.CommandLine

def versionLine : String :=
  "fee-report 0.1.0"

def helpText : String :=
  "fee-report - Enterprise fee and tax reports by producer\n\n" ++
  "Usage: fee-report [--config <CONFIG>] <COMMAND>\n\n" ++
  "Commands:\n" ++
  "  init    Create an empty ledger database\n" ++
  "  import  Load a JSON dataset into the ledger\n" ++
  "  run     Run the enterprise fee report\n" ++
  "  help    Print this message"

def Stop.outcome : Stop → Outcome
  | .help => .success helpText
  | .version => .success versionLine
  | .mistake cause => .misuse cause.message

def loadedLine (d : Dataset) : String :=
  "Imported " ++ Text.ofNat d.orders.length ++ " orders (" ++ Text.ofNat d.adjustmentCount ++
    " adjustments)"

namespace Host

variable {m : Type → Type} [Monad m] (host : Host m)

/-- The settings in a file. -/
def settingsIn (path : String) : ExceptT SettingsError m Settings := do
  unless ← host.isThere path do
    throw (.notFound path)
  let text ← (host.readText path).adapt .unreadable
  ofExcept (Settings.ofText text)

/-- The home directory, if it is known. -/
def home : m (Option String) := do
  return (← host.lookup "HOME").filter (!·.isEmpty)

/-- The directory of the user's settings, if it is known. -/
def settingsDirectory : m (Option String) := do
  match (← host.lookup "XDG_CONFIG_HOME").filter Path.isAbsolute with
  | some directory => return some directory
  | none => return (← host.home).map (Path.join · ".config")

/-- The file of settings where none is asked for: the one that a variable names, else one in the
working directory, else one among the user's settings. -/
def settingsFile : m (Option String) := do
  if let some path ← host.lookup "FEE_REPORT_CONFIG" then
    return some path
  if ← host.isThere "fee-report.toml" then
    return some "fee-report.toml"
  match ← host.settingsDirectory with
  | none => return none
  | some directory =>
    let path := Path.join (Path.join directory "fee-report") "config.toml"
    return if ← host.isThere path then some path else none

/-- The settings in the file that is asked for or else in the usual one, and the defaults where there
is none. -/
def settings (asked : Option String) : ExceptT SettingsError m Settings := do
  if let some path := asked then
    return ← host.settingsIn path
  match ← host.settingsFile with
  | some path => host.settingsIn path
  | none => return default

/-- The path of the ledger: as asked for, else from the settings, else in the home directory. -/
def ledgerPath (settings : Settings) (asked : Option String) : ExceptT String m String := do
  if let some path := asked then
    return path
  let env ← host.environment ((settings.ledger.map Expansion.references).getD [])
  match settings.ledgerPath env with
  | .error cause => throw cause.message
  | .ok (some path) => return path
  | .ok none =>
    match ← host.home with
    | some home => return Path.join (Path.join home ".fee-report") "ledger.db"
    | none => throw "Failed to determine ledger directory"

/-- Makes the directory that a path names a file in. -/
def makeDirectoryOf (path : String) : ExceptT FileError m Unit := do
  if let some directory := Path.parent? path then
    if directory.toList.contains '\x00' then
      throw .nullCharacter
    host.makeDirectory directory

/-- Keeps a ledger in its place. -/
def keepLedger (place : Location) (ledger : Ledger) : ExceptT TableError m Unit := do
  if place.access = .look then
    throw .readOnly
  if let some path := place.path then
    host.writeLedger path ledger

/-- Opens the ledger in a place, which is set up if it is new. -/
def openLedger (text : String) : ExceptT StoreError m (Location × Ledger) := do
  (host.makeDirectoryOf text).adapt .file
  let some place := Location.ofText? text | throw (.table .cannotOpen)
  let stored ← match place.path with
    | some path => (host.readLedger path place.access).adapt .table
    | none => pure ∅
  let ledger ← ofExcept stored.opened
  if stored.version.isNone then
    (host.keepLedger place ledger).adapt .table
  return (place, ledger)

/-- The ledger of a run and its place. -/
def ledger (settings : Settings) (asked : Option String) : ExceptT String m (Location × Ledger) := do
  let path ← host.ledgerPath settings asked
  (host.openLedger path).adapt fun cause =>
    "Error opening ledger '" ++ path ++ "': " ++ cause.message

/-- The dataset in a file. -/
def dataset (path : String) : ExceptT StoreError m Dataset := do
  let text ← (host.readText path).adapt .file
  let some d := Dataset.ofText? text | throw .document
  ofExcept d.validate
  return d

/-- Puts a dataset into a ledger. Nothing is written of an empty one. -/
def store (d : Dataset) (place : Location) (ledger : Ledger) : ExceptT StoreError m Unit := do
  let ledger ← ofExcept (ledger.load d)
  unless d.isEmpty do
    (host.keepLedger place ledger).adapt .table

/-- Loads the dataset in a file. -/
def load (settings : Settings) (asked : Option String) (file : String) :
    ExceptT String m Outcome := do
  let d ← (host.dataset file).adapt fun cause =>
    "Error reading dataset '" ++ file ++ "': " ++ cause.message
  let (place, ledger) ← host.ledger settings asked
  (host.store d place ledger).adapt fun cause => "Import error: " ++ cause.message
  return .success (loadedLine d)

/-- Reports on a ledger. -/
def report (settings : Settings) (arguments : Arguments) : ExceptT String m Outcome := do
  let (_, ledger) ← host.ledger settings arguments.ledger
  let options : Report.Options := ⟨settings.summaries && !arguments.noSummary⟩
  match Report.run ledger.store arguments.filters Permission.everything options with
  | .ok report => return .success (report.render (arguments.format.getD settings.format))
  | .error (.store cause) => throw ("Report error: " ++ cause.message)
  | .error (.overflow _) => return .aborted

/-- Does what is asked. -/
def perform (request : Request) : ExceptT String m Outcome := do
  let arguments := request.arguments
  let settings ← (host.settings arguments.config).adapt fun cause =>
    "Configuration error: " ++ cause.message
  match request.command with
  | .create =>
    discard (host.ledger settings arguments.ledger)
    return .success "Ledger ready"
  | .load => host.load settings arguments.ledger (arguments.file.getD "")
  | .report => host.report settings arguments

/-- A run of the program with these arguments. -/
def run (arguments : List String) : m Outcome :=
  match Request.ofArguments arguments with
  | .error stop => return stop.outcome
  | .ok request => do
    match ← (host.perform request).run with
    | .ok outcome => return outcome
    | .error line => return .failure line

end Host

end MarketFees.CommandLine
