import MarketFees.CommandLine.Location
import MarketFees.Environment
import MarketFees.Ledger.Basic

namespace MarketFees.CommandLine

structure Host (m : Type → Type) where
  /-- The value of a variable of the environment. -/
  lookup : String → m (Option String)
  /-- Whether there is a file or directory. -/
  isThere : String → m Bool
  readText : String → ExceptT FileError m String
  /-- Makes a directory, and the ones that lead to it. -/
  makeDirectory : String → ExceptT FileError m Unit
  /-- The ledger in a file, which is empty where there is no file and one may be made. -/
  readLedger : String → Access → ExceptT TableError m Ledger
  writeLedger : String → Ledger → ExceptT TableError m Unit

/-- The variables with these names. -/
def Host.environment {m : Type → Type} [Monad m] (host : Host m) (names : List String) :
    m Environment := do
  let values ← names.mapM fun name => do return (← host.lookup name).map (name, ·)
  return ⟨values.filterMap id⟩

/-- The exit code of a run, and the texts on its two outputs. -/
structure Outcome where
  code : UInt8
  output : String
  errors : String
  deriving DecidableEq, Repr

namespace Outcome

def success (line : String) : Outcome :=
  ⟨0, line ++ "\n", ""⟩

def failure (line : String) : Outcome :=
  ⟨1, "", line ++ "\n"⟩

def misuse (line : String) : Outcome :=
  ⟨2, "", line ++ "\n"⟩

/-- The outcome of a run that ends at once because a sum is too large. -/
def aborted : Outcome :=
  ⟨101, "", "\n"⟩

end Outcome

end MarketFees.CommandLine
