import MarketFees.CommandLine.Program
import MarketFees.Ledger.Document

namespace MarketFees.CommandLine

/-- What keeps a file from being read or made. -/
def fileError : IO.Error → FileError
  | .noFileOrDirectory .. => .notFound
  | .alreadyExists .. => .exists
  | .invalidArgument .. => .nameTooLong
  | .inappropriateType _ code _ => if code == 21 || code == 0 - 21 then .isDirectory else .notDirectory
  | _ => .isDirectory

def attempt (f : IO.Error → ε) (action : IO α) : ExceptT ε IO α :=
  ExceptT.mk do
    try
      return .ok (← action)
    catch e =>
      return .error (f e)

/-- The bytes of a file, if there is one. -/
def bytesOf? (path : String) : IO (Option ByteArray) := do
  try
    return some (← IO.FS.readBinFile path)
  catch
    | .noFileOrDirectory .. => return none
    | e => throw e

def isThere (path : String) : IO Bool := do
  try
    discard (IO.FS.Handle.mk path .read)
    return true
  catch _ =>
    return false

def readText (path : String) : ExceptT FileError IO String := do
  let content ← attempt fileError (IO.FS.readBinFile path)
  match String.fromUTF8? content with
  | some text => return text
  | none => throw .notText

/-- Makes a directory, unless there is one. -/
def makeOne (path : String) (last : Bool) : IO Unit := do
  try
    IO.FS.createDir path
  catch e =>
    match e with
    | .alreadyExists .. => if last && !(← isThere (path ++ "/.")) then throw e
    | e => throw e

def makeDirectory (path : String) : IO Unit := do
  for directory in Path.leading path do
    makeOne directory (directory == (Path.leading path).getLast?.getD "")

/-- The path from the root of a ledger's file. -/
def settled (path : String) : IO String := do
  return Path.settled (← IO.currentDir).toString path

def readLedger (path : String) (access : Access) : ExceptT TableError IO Ledger := do
  match ← attempt (fun _ => .cannotOpen) (do bytesOf? (← settled path)) with
  | none => if access = .make then return ∅ else throw .cannotOpen
  | some content =>
    match (String.fromUTF8? content).bind Ledger.ofText? with
    | some ledger => return ledger
    | none => throw .notALedger

def writeLedger (path : String) (ledger : Ledger) : ExceptT TableError IO Unit :=
  attempt (fun _ => .cannotOpen) do
    IO.FS.writeBinFile (← settled path) ledger.toText.toUTF8

def computer : Host IO where
  lookup name := IO.getEnv name
  isThere path := isThere path
  readText path := readText path
  makeDirectory path := attempt fileError (makeDirectory path)
  readLedger path access := readLedger path access
  writeLedger path ledger := writeLedger path ledger

end MarketFees.CommandLine

def main (arguments : List String) : IO UInt32 := do
  let outcome ← MarketFees.CommandLine.computer.run arguments
  IO.print outcome.output
  IO.eprint outcome.errors
  return outcome.code.toUInt32
