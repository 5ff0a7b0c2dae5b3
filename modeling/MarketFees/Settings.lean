import MarketFees.Expansion
import MarketFees.Fault
import MarketFees.Report.Document
import MarketFees.Toml.Reader

namespace MarketFees

structure Settings where
  /-- The path of the ledger, in which variables of the environment may be referred to. -/
  ledger : Option String
  summaries : Bool
  format : OutputFormat
  logFilter : String
  deriving DecidableEq, Repr

instance : Inhabited Settings :=
  ⟨⟨none, true, .text, "warn"⟩⟩

inductive SettingsError where
  | notFound (path : String)
  | unreadable (cause : FileError)
  | malformed
  | missingVariable (name : String)
  deriving DecidableEq, Repr

def SettingsError.message : SettingsError → String
  | .notFound path => "Config file not found: " ++ path
  | .unreadable cause => "Failed to read config file: " ++ cause.message
  | .malformed => "Failed to parse config file: the settings do not fit"
  | .missingVariable name => "Missing environment variable: " ++ name

/-- A format is its name, or a table with the name as only key and nothing in it. -/
def OutputFormat.ofToml? : Toml → Option OutputFormat
  | .string name => ofName? name
  | .table [(name, content)] => if content.isEmpty then ofName? name else none
  | _ => none

namespace Settings

open Toml

def withLedger (settings : Settings) (group : Toml) : Option Settings := do
  match ← group.group? ["path"] with
  | [path] => return { settings with ledger := ← orElse (·.toString?.map some) settings.ledger path }
  | _ => none

def withReport (settings : Settings) (group : Toml) : Option Settings := do
  match ← group.group? ["summary_rows", "format"] with
  | [summaries, format] =>
    return { settings with
      summaries := ← orElse toBool? settings.summaries summaries
      format := ← orElse OutputFormat.ofToml? settings.format format }
  | _ => none

def withLogging (settings : Settings) (group : Toml) : Option Settings := do
  match ← group.group? ["filter"] with
  | [filter] => return { settings with logFilter := ← orElse toString? settings.logFilter filter }
  | _ => none

def ofToml? (t : Toml) : Option Settings := do
  match ← t.group? ["ledger", "report", "logging"] with
  | [ledger, report, logging] =>
    let settings ← orElse (withLedger default) default ledger
    let settings ← orElse settings.withReport settings report
    orElse settings.withLogging settings logging
  | _ => none

/-- The settings in the text of a file. -/
def ofText (text : String) : Except SettingsError Settings :=
  match (Toml.ofText? text).bind (ofToml? <| .table ·) with
  | some settings => .ok settings
  | none => .error .malformed

/-- The path of the ledger with the values of the variables in it. -/
def ledgerPath (settings : Settings) (env : Environment) : Except SettingsError (Option String) :=
  match settings.ledger with
  | none => .ok none
  | some path => (env.expand path |>.mapError .missingVariable).map some

end Settings

end MarketFees
