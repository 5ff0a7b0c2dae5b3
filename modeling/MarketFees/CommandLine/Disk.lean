import MarketFees.CommandLine.Host
import MarketFees.CommandLine.Path

namespace MarketFees.CommandLine

inductive File where
  | directory
  | bytes (content : ByteArray)
  | ledger (content : Ledger)

structure Disk where
  /-- The files below the root, by the names on the way to each. -/
  files : List (List String × File)
  /-- The names on the way to the working directory. -/
  workingDirectory : List String

namespace Disk

def file? (d : Disk) : List String → Option File
  | [] => some .directory
  | place => d.files.lookup place

def put (d : Disk) (place : List String) (file : File) : Disk :=
  { d with files := (place, file) :: d.files.filter (·.1 != place) }

/-- From a place to the next name of a path. -/
def step (d : Disk) (place : List String) (name : String) : Except FileError (List String) :=
  match d.file? place with
  | none => .error .notFound
  | some .directory =>
    if Path.nameLimit < name.utf8ByteSize then .error .nameTooLong else .ok (Path.next place name)
  | some _ => .error .notDirectory

/-- Where a path starts. -/
def origin (d : Disk) (path : String) : List String :=
  if Path.isAbsolute path then [] else d.workingDirectory

/-- The place that a path leads to, whether or not there is a file. -/
def locate (d : Disk) (path : String) : Except FileError (List String) :=
  if path.isEmpty then .error .notFound else (path.splitOn "/").foldlM d.step (d.origin path)

/-- The file at the end of a path. -/
def find (d : Disk) (path : String) : Except FileError File := do
  (d.file? (← d.locate path)).elim (.error .notFound) .ok

/-- As `step`, into a directory that is made if nothing is there. -/
def enter (state : Disk × List String) (name : String) : Except FileError (Disk × List String) := do
  let (d, place) := state
  let next ← d.step place name
  return (if (d.file? next).isNone then d.put next .directory else d, next)

/-- The files with a directory made, and the ones that lead to it. -/
def withDirectory (d : Disk) (path : String) : Except FileError Disk := do
  let (d, place) ← (path.splitOn "/").foldlM enter (d, d.origin path)
  match d.file? place with
  | some .directory => return d
  | _ => .error .exists

def readText (d : Disk) (path : String) : Except FileError String := do
  match ← d.find path with
  | .directory => .error .isDirectory
  | .ledger _ => .error .notText
  | .bytes content => (String.fromUTF8? content).elim (.error .notText) .ok

/-- From a place to the next name of a ledger's path. There need not be anything, and a name may be
taken back, but nothing lies below a file. -/
def settleStep (d : Disk) (place : List String) (name : String) : Except TableError (List String) :=
  let next := Path.next place name
  match d.file? place with
  | some (.bytes _) | some (.ledger _) =>
    if place.length < next.length then .error .cannotOpen else .ok next
  | _ => if Path.nameLimit < name.utf8ByteSize then .error .cannotOpen else .ok next

/-- The letters behind the name of a ledger's file that name the journal of its changes. -/
def journalSuffix : String :=
  "-journal"

/-- The place that a ledger's path leads to, in a directory that is there. -/
def settle (d : Disk) (path : String) : Except TableError (List String) := do
  let place ← (path.splitOn "/").foldlM d.settleStep (d.origin path)
  let journal := place.getLast?.getD "" ++ journalSuffix
  match d.file? place.dropLast with
  | some .directory => if Path.nameLimit < journal.utf8ByteSize then .error .cannotOpen else .ok place
  | _ => .error .cannotOpen

def readLedger (d : Disk) (path : String) (access : Access) : Except TableError Ledger := do
  match d.file? (← d.settle path) with
  | none => if access = .make then return ∅ else .error .cannotOpen
  | some .directory => .error .cannotOpen
  | some (.ledger content) => return content
  | some (.bytes content) => if content.isEmpty then return ∅ else .error .notALedger

def withLedger (d : Disk) (path : String) (ledger : Ledger) : Except TableError Disk := do
  return d.put (← d.settle path) (.ledger ledger)

/-- A file of bytes, with the directories that lead to it. -/
def withBytes (d : Disk) (place : List String) (content : ByteArray) : Disk :=
  let directories := (List.range place.length).map (place.take ·)
  let missing := directories.filter fun place => (d.file? place).isNone
  (missing.foldl (fun d place => d.put place .directory) d).put place (.bytes content)

/-- The files as a computer with this environment. -/
def host (env : Environment) : Host (StateM Disk) where
  lookup name := return env.bindings.lookup name
  isThere path := do return (← get).find path |>.isOk
  readText path := do ofExcept ((← get).readText path)
  makeDirectory path := do set (← ofExcept ((← get).withDirectory path))
  readLedger path access := do ofExcept ((← get).readLedger path access)
  writeLedger path ledger := do set (← ofExcept ((← get).withLedger path ledger))

end Disk

end MarketFees.CommandLine
