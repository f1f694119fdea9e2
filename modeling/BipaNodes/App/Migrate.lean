import BipaNodes.App.Startup

/-!
# Failures of the migrator

How `sqlx` 0.8 reports a failure of `Migrator::run`, and which of the reports
`migrate_with_retry` retries.
-/

set_option autoImplicit false

namespace BipaNodes.App

open Storage (MigrateError SqlxError StorageError)

inductive MigratorStage where
  | acquire
  | lock
  | readVersions
  | executeSql (version : Int64)
  | record (version : Int64)
  deriving DecidableEq, Repr

def sqlxError? : MigrateError → Option SqlxError
  | .execute error => some error
  | .executeMigration error _ => some error
  | _ => none

inductive MigrationFailure where
  /-- The database client fails at a stage. -/
  | database (stage : MigratorStage) (error : SqlxError)
  /-- The migrations themselves are at fault. -/
  | inconsistent (error : MigrateError) (noCause : sqlxError? error = none)

namespace MigrationFailure

def migrateError : MigrationFailure → MigrateError
  | .database (.executeSql version) error => .executeMigration error version
  | .database _ error => .execute error
  | .inconsistent error _ => error

/-- What `storage::migrate` returns, `?` turning it into a `StorageError`. -/
def report (failure : MigrationFailure) : StorageError := .migration failure.migrateError

def isConnectivity : MigrationFailure → Bool
  | .database _ error => isConnectionError error
  | .inconsistent _ _ => false

def whileExecutingSql : MigrationFailure → Bool
  | .database (.executeSql _) _ => true
  | _ => false

theorem isTransient_report (failure : MigrationFailure) :
    isTransientMigrateError failure.report =
      (failure.isConnectivity && !failure.whileExecutingSql) := by
  cases failure with
  | database stage error =>
      cases stage with
      | executeSql version => simp [report, migrateError, isTransientMigrateError, whileExecutingSql]
      | acquire | lock | readVersions | record =>
          simp [report, migrateError, isTransientMigrateError, isConnectivity, whileExecutingSql]
  | inconsistent error noCause =>
      cases error with
      | execute | executeMigration => cases noCause
      | _ => rfl

end MigrationFailure

namespace Startup

variable {Pool : Type} {build : Build} {state next : Startup Pool}

def Retries (state : Startup Pool) : Prop :=
  ∃ wake, state.migrate.phase = .sleep .token wake

def GivesUp (failure : MigrationFailure) (state : Startup Pool) : Prop :=
  state.migrate.phase = .returned (.error failure.report)

/-- A failed poll of the migration leads to a retry exactly if it is about
connectivity, and ends startup exactly if it is not. -/
def ClassifiesFailure (event : StartupEvent Pool) (after : Startup Pool) : Prop :=
  ∀ failure : MigrationFailure, event = .pollMigrate (some (.error failure.report)) →
    (after.Retries ↔ failure.isConnectivity = true) ∧
      (after.GivesUp failure ↔ failure.isConnectivity = false)

/-- A lost connection shows at a stage that the classification knows, and its
warning does not panic. -/
def RecognisesFailure (build : Build) (before : Startup Pool) (event : StartupEvent Pool) : Prop :=
  ∀ failure : MigrationFailure, event = .pollMigrate (some (.error failure.report)) →
    failure.isConnectivity = true →
    failure.whileExecutingSql = false ∧
      (build.overflowChecks && before.migrate.logOverflows build) = false

theorem failed_phase {failure : MigrationFailure}
    (stepped : (startup Pool build).step state (.pollMigrate (some (.error failure.report))) =
      some next) :
    next.migrate.phase =
      if failure.isConnectivity && !failure.whileExecutingSql then
        if build.overflowChecks && state.migrate.logOverflows build then
          .panicked
        else
          .sleep .token (state.now + Nanos.seconds (backoffDelay state.migrate.attempt))
      else
        .returned (.error failure.report) := by
  simp only [startup, pollMigrate] at stepped
  split at stepped
  · obtain ⟨after, polled, rfl⟩ := Option.map_eq_some_iff.mp stepped
    unfold RetryState.pollOp at polled
    split at polled
    · cases polled
      rw [← failure.isTransient_report, RetryState.fail]
      split
      · rfl
      · rfl
    · cases polled
  · cases stepped

theorem classifies_iff_recognises {event : StartupEvent Pool}
    (stepped : (startup Pool build).step state event = some next) :
    next.ClassifiesFailure event ↔ state.RecognisesFailure build event := by
  constructor
  · intro classifies failure arrived connectivity
    obtain ⟨retries, _⟩ := classifies failure arrived
    subst arrived
    obtain ⟨wake, phase⟩ := retries.mpr connectivity
    rw [failed_phase stepped] at phase
    cases executing : failure.whileExecutingSql with
    | true => simp [executing] at phase
    | false =>
        cases panics : build.overflowChecks && state.migrate.logOverflows build with
        | true => simp [connectivity, executing, panics] at phase
        | false => exact ⟨rfl, rfl⟩
  · intro recognises failure arrived
    have known := recognises failure arrived
    subst arrived
    unfold Retries GivesUp
    rw [failed_phase stepped]
    cases connectivity : failure.isConnectivity with
    | true =>
        obtain ⟨executing, quiet⟩ := known connectivity
        simp [executing, quiet]
    | false => simp

end Startup

/-- Migration failures are classified by connectivity in exactly the runs in
which no connection is lost while a migration's SQL executes, and no warning of
a lost connection panics. -/
theorem migration_retries_iff {Pool : Type} (build : Build) (events : List (StartupEvent Pool)) :
    (startup Pool build).EveryStep (fun _ event after => after.ClassifiesFailure event) {} events ↔
      (startup Pool build).EveryStep
        (fun before event _ => before.RecognisesFailure build event) {} events := by
  apply @Machine.everyStep_iff _ _ _ fun _ => True
  · intro before event after _ stepped
    exact Startup.classifies_iff_recognises stepped
  · intro before event after _ _ _
    trivial
  · trivial

/-- A connection that drops while the first migration's SQL executes. -/
def droppedMigration : MigrationFailure :=
  .database (.executeSql 1) (.io "connection reset by peer")

theorem dropped_migration_ends_startup :
    ¬ ∀ (build : Build) (events : List (StartupEvent Unit)),
      (startup Unit build).EveryStep (fun _ event after => after.ClassifiesFailure event)
        {} events := by
  intro classifies
  let build : Build := { overflowChecks := false, warnEnabled := true }
  have every := classifies build [.pollToken, .pollConnect (some (.ok ())), .resume, .pollToken,
    .pollMigrate (some (.error droppedMigration.report))]
  have last := (every _ rfl).2 _ rfl |>.2 _ rfl |>.2 _ rfl |>.2 _ rfl |>.1
  obtain ⟨wake, phase⟩ := (last droppedMigration rfl).1.mpr rfl
  cases phase

end BipaNodes.App
