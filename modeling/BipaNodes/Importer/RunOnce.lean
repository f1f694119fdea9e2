import BipaNodes.Source.Error
import BipaNodes.Storage.Postgres

/-!
# A single import

`run_once` fetches the ranking and replaces the stored snapshot with it.
-/

set_option autoImplicit false

namespace BipaNodes.Importer

open Domain (Node)
open Source (SourceError)
open Storage (Link StorageError TableRow)

structure ImportOutcome where
  imported : Nat
  deriving DecidableEq, Repr

inductive ImportError where
  | source (error : SourceError)
  | storage (error : StorageError)
  | emptySource
  | panicked (message : String)
  deriving DecidableEq, Repr

/-- Fetches the ranking once and replaces the stored snapshot with it. Storage
is only touched after a successful, non-empty fetch. -/
def runOnce (fetched : Except SourceError (List Node)) (link : Link) (importedAt : Int)
    (table : List TableRow) : Except ImportError ImportOutcome × List TableRow :=
  match fetched with
  | .error error => (.error (.source error), table)
  | .ok nodes =>
      if nodes.isEmpty then
        (.error .emptySource, table)
      else
        match Storage.replaceAll link importedAt table nodes with
        | (.ok imported, stored) => (.ok { imported }, stored)
        | (.error error, stored) => (.error (.storage error), stored)

inductive LogLevel where
  | info
  | warn
  | error
  deriving DecidableEq, Repr

/-- The line that reports an iteration, its fields apart. -/
def logResult : Except ImportError ImportOutcome → LogLevel × String
  | .ok _ => (.info, "import succeeded")
  | .error (.source _) => (.warn, "import failed, keeping previous snapshot")
  | .error .emptySource => (.warn, "import failed, keeping previous snapshot")
  | .error (.storage _) => (.error, "import failed, keeping previous snapshot")
  | .error (.panicked _) => (.error, "import failed, keeping previous snapshot")

end BipaNodes.Importer
