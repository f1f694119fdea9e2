import Mathlib.Data.List.Basic

/-! Failures of the database client, the migrator and the repository. -/

set_option autoImplicit false

namespace BipaNodes.Storage

/-- Why Postgres itself rejects a statement because of its data. -/
inductive DataError where
  | notNullViolation
  | checkViolation
  | uniqueViolation
  /-- A text value contains U+0000. -/
  | untranslatableCharacter
  /-- A timestamp lies outside the range of `timestamptz`. -/
  | datetimeFieldOverflow
  deriving DecidableEq, Repr

/-- `sqlx::Error`, without the `Migrate` box that only other drivers fill. -/
inductive SqlxError where
  | configuration (cause : String)
  | invalidArgument (cause : String)
  | database (error : DataError ⊕ String)
  | io (cause : String)
  | tls (cause : String)
  | protocol (cause : String)
  | rowNotFound
  | typeNotFound (name : String)
  | columnIndexOutOfBounds (index len : Nat)
  | columnNotFound (name : String)
  | columnDecode (index cause : String)
  | encode (cause : String)
  | decode (cause : String)
  | anyDriverError (cause : String)
  | poolTimedOut
  | poolClosed
  | workerCrashed
  | invalidSavePointStatement
  | beginFailed
  deriving DecidableEq, Repr

inductive MigrateError where
  | execute (error : SqlxError)
  | executeMigration (error : SqlxError) (version : Int64)
  | source (cause : String)
  | versionMissing (version : Int64)
  | versionMismatch (version : Int64)
  | versionNotPresent (version : Int64)
  | versionTooOld (version latest : Int64)
  | versionTooNew (version latest : Int64)
  | forceNotSupported
  | invalidMixReversibleAndSimple
  | dirty (version : Int64)
  deriving DecidableEq, Repr

inductive StorageError where
  | database (error : SqlxError)
  | migration (error : MigrateError)
  | outOfRange (field value : String)
  deriving DecidableEq, Repr

end BipaNodes.Storage
