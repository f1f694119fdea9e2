import BipaNodes.App.Retry
import BipaNodes.Lib.Machine
import BipaNodes.Source.Error

/-!
# Startup

`run` connects, migrates and serves. Its two retried phases run one after the
other against the same cancellation token.
-/

set_option autoImplicit false

namespace BipaNodes.App

open Source (SourceError)
open Storage (StorageError)

inductive AppError where
  | storage (error : StorageError)
  | source (error : SourceError)
  | serve (cause : String)
  deriving DecidableEq, Repr

inductive Stage (Pool : Type) where
  | connecting
  | migrating (pool : Pool)
  /-- Cancelled while migrating: the pool is being closed. -/
  | closingPool
  | serving (pool : Pool)
  | returned (result : Except AppError Unit)
  | panicked

structure Startup (Pool : Type) where
  now : Nanos := 0
  cancelled : Bool := false
  /-- A poll of the token has found it cancelled. -/
  sawCancelled : Bool := false
  connect : RetryState Pool StorageError := {}
  migrate : RetryState Unit StorageError := {}
  stage : Stage Pool := .connecting

inductive StartupEvent (Pool : Type) where
  | elapse (duration : Nanos)
  | cancel
  | pollToken
  | pollConnect (ready : Option (Except StorageError Pool))
  | pollMigrate (ready : Option (Except StorageError Unit))
  | pollTimer
  /-- `run` goes on where the future it awaits has completed. -/
  | resume

namespace Startup

variable {Pool : Type}

def mayElapse (state : Startup Pool) (duration : Nanos) : Bool :=
  match state.stage with
  | .connecting => state.connect.mayElapse state.now duration
  | .migrating _ => state.migrate.mayElapse state.now duration
  | .closingPool => true
  | _ => false

/-- The statements of `run` after `connect_with_retry(..).await?`. -/
def afterConnect (state : Startup Pool) : Option (Stage Pool) :=
  match state.connect.phase with
  | .returned (.ok (some pool)) => some (.migrating pool)
  | .returned (.ok none) => some (.returned (.ok ()))
  | .returned (.error error) => some (.returned (.error (.storage error)))
  | .panicked => some .panicked
  | _ => none

/-- The statements of `run` after `migrate_with_retry(..).await?`. -/
def afterMigrate (state : Startup Pool) (pool : Pool) : Option (Stage Pool) :=
  match state.migrate.phase with
  | .returned (.ok (some ())) => some (.serving pool)
  | .returned (.ok none) => some .closingPool
  | .returned (.error error) => some (.returned (.error (.storage error)))
  | .panicked => some .panicked
  | _ => none

def resume (state : Startup Pool) : Option (Stage Pool) :=
  match state.stage with
  | .connecting => state.afterConnect
  | .migrating pool => state.afterMigrate pool
  | .closingPool => some (.returned (.ok ()))
  | _ => none

def pollToken (state : Startup Pool) : Option (Startup Pool) :=
  match state.stage with
  | .connecting =>
      (state.connect.pollToken state.cancelled).map fun connect =>
        { state with connect, sawCancelled := state.cancelled }
  | .migrating _ =>
      (state.migrate.pollToken state.cancelled).map fun migrate =>
        { state with migrate, sawCancelled := state.cancelled }
  | _ => none

def pollTimer (state : Startup Pool) : Option (Startup Pool) :=
  match state.stage with
  | .connecting =>
      (state.connect.pollTimer state.now).map fun connect => { state with connect }
  | .migrating _ =>
      (state.migrate.pollTimer state.now).map fun migrate => { state with migrate }
  | _ => none

def pollConnect (build : Build) (ready : Option (Except StorageError Pool))
    (state : Startup Pool) : Option (Startup Pool) :=
  match state.stage with
  | .connecting =>
      (state.connect.pollOp build isTransientConnectError state.now ready).map fun connect =>
        { state with connect }
  | _ => none

def pollMigrate (build : Build) (ready : Option (Except StorageError Unit))
    (state : Startup Pool) : Option (Startup Pool) :=
  match state.stage with
  | .migrating _ =>
      (state.migrate.pollOp build isTransientMigrateError state.now ready).map fun migrate =>
        { state with migrate }
  | _ => none

end Startup

def startup (Pool : Type) (build : Build) : Machine (Startup Pool) (StartupEvent Pool) where
  step state
    | .elapse duration =>
        if state.mayElapse duration then
          some { state with now := state.now + duration }
        else
          none
    | .cancel => some { state with cancelled := true }
    | .pollToken => state.pollToken
    | .pollConnect ready => state.pollConnect build ready
    | .pollMigrate ready => state.pollMigrate build ready
    | .pollTimer => state.pollTimer
    | .resume => state.resume.map fun stage => { state with stage }

end BipaNodes.App
