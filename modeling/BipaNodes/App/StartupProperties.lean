import BipaNodes.App.RetryProperties
import BipaNodes.App.Startup

/-! Startup over any run of failures: what every step keeps, and the warning
whose number no longer fits. -/

set_option autoImplicit false

namespace BipaNodes.App

open Storage (SqlxError StorageError)

variable {Pool : Type} {build : Build}

namespace Startup

variable {state next : Startup Pool}

/-!
## Invariant
-/

/-- The pool is connected, and migrating began no earlier. -/
def Connected (state : Startup Pool) (pool : Pool) : Prop :=
  state.connect.phase = .returned (.ok (some pool)) ∧
    ∃ connected ≤ state.now, state.connect.successes = [(pool, connected)] ∧
      (∀ start ∈ state.migrate.starts, connected ≤ start) ∧
      ∀ success ∈ state.migrate.successes, connected ≤ success.2

def AtStage (state : Startup Pool) : Prop :=
  match state.stage with
  | .connecting =>
      state.migrate = {} ∧
        (state.sawCancelled = true ↔ state.connect.phase = .returned (.ok none))
  | .migrating pool =>
      state.Connected pool ∧
        (state.sawCancelled = true ↔ state.migrate.phase = .returned (.ok none))
  | .closingPool =>
      state.sawCancelled = true ∧ state.migrate.phase = .returned (.ok none) ∧
        ∃ pool, state.Connected pool
  | .serving pool =>
      state.sawCancelled = false ∧ state.Connected pool ∧
        state.migrate.phase = .returned (.ok (some ()))
  | .returned (.ok ()) =>
      state.sawCancelled = true ∧ (state.migrate = {} ∨ ∃ pool, state.Connected pool)
  | .returned (.error error) =>
      state.sawCancelled = false ∧ ∃ cause, error = .storage cause ∧
        (state.connect.phase = .returned (.error cause) ∧ state.migrate = {} ∨
          state.migrate.phase = .returned (.error cause) ∧ ∃ pool, state.Connected pool)
  | .panicked => False

structure Invariant (state : Startup Pool) : Prop where
  connect : state.connect.Invariant isTransientConnectError state.now
  migrate : state.migrate.Invariant isTransientMigrateError state.now
  atStage : state.AtStage

theorem Invariant.initial : Invariant ({} : Startup Pool) where
  connect := RetryState.Invariant.initial
  migrate := RetryState.Invariant.initial
  atStage := by
    refine ⟨rfl, ?_⟩
    simp

theorem Connected.later {pool : Pool} (connected : state.Connected pool) {duration : Nanos} :
    Connected { state with now := state.now + duration } pool := by
  obtain ⟨phase, time, past, rest⟩ := connected
  exact ⟨phase, time, Nat.le_trans past (Nat.le_add_right _ _), rest⟩

theorem Invariant.elapse (invariant : state.Invariant) {duration : Nanos}
    (waits : state.mayElapse duration = true) :
    Invariant { state with now := state.now + duration } := by
  obtain ⟨connect, migrate, atStage⟩ := invariant
  unfold mayElapse at waits
  unfold AtStage at atStage
  cases stage : state.stage with
  | connecting =>
      rw [stage] at waits atStage
      refine ⟨connect.elapse waits, migrate.elapse_idle (.inl atStage.1), ?_⟩
      simpa only [AtStage, stage] using atStage
  | migrating pool =>
      rw [stage] at waits atStage
      obtain ⟨connected, observed⟩ := atStage
      refine ⟨connect.elapse_idle (.inr ⟨_, connected.1⟩), migrate.elapse waits, ?_⟩
      simp only [AtStage]
      exact ⟨connected.later, observed⟩
  | closingPool =>
      rw [stage] at atStage
      obtain ⟨saw, phase, pool, connected⟩ := atStage
      refine ⟨connect.elapse_idle (.inr ⟨_, connected.1⟩), migrate.elapse_idle (.inr ⟨_, phase⟩), ?_⟩
      simp only [AtStage]
      exact ⟨saw, phase, pool, connected.later⟩
  | serving pool => simp [stage] at waits
  | returned result => simp [stage] at waits
  | panicked => simp [stage] at waits

theorem Invariant.cancel (invariant : state.Invariant) :
    Invariant { state with cancelled := true } :=
  ⟨invariant.connect, invariant.migrate, invariant.atStage⟩

theorem Invariant.pollToken (invariant : state.Invariant)
    (polled : state.pollToken = some next) : next.Invariant := by
  obtain ⟨connect, migrate, atStage⟩ := invariant
  unfold Startup.pollToken at polled
  unfold AtStage at atStage
  cases stage : state.stage with
  | connecting =>
      rw [stage] at atStage
      simp only [stage] at polled
      obtain ⟨after, stepped, rfl⟩ := Option.map_eq_some_iff.mp polled
      refine ⟨connect.pollToken stepped, migrate, ?_⟩
      simp only [AtStage]
      exact ⟨atStage.1, (RetryState.pollToken_returned_iff stepped).symm⟩
  | migrating pool =>
      rw [stage] at atStage
      simp only [stage] at polled
      obtain ⟨after, stepped, rfl⟩ := Option.map_eq_some_iff.mp polled
      obtain ⟨starts, successes⟩ := RetryState.pollToken_histories stepped
      refine ⟨connect, migrate.pollToken stepped, ?_⟩
      simp only [AtStage]
      refine ⟨?_, (RetryState.pollToken_returned_iff stepped).symm⟩
      simpa only [Connected, starts, successes] using atStage.1
  | closingPool => simp [stage] at polled
  | serving pool => simp [stage] at polled
  | returned result => simp [stage] at polled
  | panicked => simp [stage] at polled

theorem Invariant.pollTimer (invariant : state.Invariant)
    (polled : state.pollTimer = some next) : next.Invariant := by
  obtain ⟨connect, migrate, atStage⟩ := invariant
  unfold Startup.pollTimer at polled
  unfold AtStage at atStage
  cases stage : state.stage with
  | connecting =>
      rw [stage] at atStage
      simp only [stage] at polled
      obtain ⟨after, stepped, rfl⟩ := Option.map_eq_some_iff.mp polled
      obtain ⟨awake, asleep, _, _⟩ := RetryState.pollTimer_frame stepped
      refine ⟨connect.pollTimer stepped, migrate, ?_⟩
      simp only [AtStage]
      exact ⟨atStage.1, by simp [atStage.2, awake none, asleep none]⟩
  | migrating pool =>
      rw [stage] at atStage
      simp only [stage] at polled
      obtain ⟨after, stepped, rfl⟩ := Option.map_eq_some_iff.mp polled
      obtain ⟨awake, asleep, starts, successes⟩ := RetryState.pollTimer_frame stepped
      refine ⟨connect, migrate.pollTimer stepped, ?_⟩
      simp only [AtStage]
      refine ⟨?_, by simp [atStage.2, awake none, asleep none]⟩
      simpa only [Connected, starts, successes] using atStage.1
  | closingPool => simp [stage] at polled
  | serving pool => simp [stage] at polled
  | returned result => simp [stage] at polled
  | panicked => simp [stage] at polled

theorem Invariant.pollConnect (invariant : state.Invariant)
    {ready : Option (Except StorageError Pool)}
    (safe : ∀ error, ready = some (.error error) →
      ¬ RetryState.WarningOverflows build isTransientConnectError error state.connect)
    (polled : state.pollConnect build ready = some next) : next.Invariant := by
  obtain ⟨connect, migrate, atStage⟩ := invariant
  unfold Startup.pollConnect at polled
  unfold AtStage at atStage
  cases stage : state.stage with
  | connecting =>
      rw [stage] at atStage
      simp only [stage] at polled
      obtain ⟨after, stepped, rfl⟩ := Option.map_eq_some_iff.mp polled
      obtain ⟨awake, unobserved⟩ := RetryState.pollOp_phase stepped
      refine ⟨connect.pollOp safe stepped, migrate, ?_⟩
      simp only [AtStage]
      exact ⟨atStage.1, by simp [atStage.2, awake, unobserved]⟩
  | migrating pool => simp [stage] at polled
  | closingPool => simp [stage] at polled
  | serving pool => simp [stage] at polled
  | returned result => simp [stage] at polled
  | panicked => simp [stage] at polled

theorem Invariant.pollMigrate (invariant : state.Invariant)
    {ready : Option (Except StorageError Unit)}
    (safe : ∀ error, ready = some (.error error) →
      ¬ RetryState.WarningOverflows build isTransientMigrateError error state.migrate)
    (polled : state.pollMigrate build ready = some next) : next.Invariant := by
  obtain ⟨connect, migrate, atStage⟩ := invariant
  unfold Startup.pollMigrate at polled
  unfold AtStage at atStage
  cases stage : state.stage with
  | migrating pool =>
      rw [stage] at atStage
      simp only [stage] at polled
      obtain ⟨after, stepped, rfl⟩ := Option.map_eq_some_iff.mp polled
      obtain ⟨awake, unobserved⟩ := RetryState.pollOp_phase stepped
      obtain ⟨⟨phase, connected, past, once, startsLater, successesLater⟩, observed⟩ := atStage
      refine ⟨connect, migrate.pollOp safe stepped, ?_⟩
      simp only [AtStage]
      refine ⟨⟨phase, connected, past, once, ?_, ?_⟩, by simp [observed, awake, unobserved]⟩
      · intro start member
        rcases RetryState.pollOp_starts stepped start member with earlier | now
        · exact startsLater start earlier
        · rw [now]
          exact past
      · intro success member
        rcases RetryState.pollOp_successes stepped success member with earlier | now
        · exact successesLater success earlier
        · rw [now]
          exact past
  | connecting => simp [stage] at polled
  | closingPool => simp [stage] at polled
  | serving pool => simp [stage] at polled
  | returned result => simp [stage] at polled
  | panicked => simp [stage] at polled

theorem Invariant.resume (invariant : state.Invariant) {stage : Stage Pool}
    (resumed : state.resume = some stage) : Invariant { state with stage } := by
  obtain ⟨connect, migrate, atStage⟩ := invariant
  refine ⟨connect, migrate, ?_⟩
  unfold Startup.resume at resumed
  unfold AtStage at atStage ⊢
  cases before : state.stage with
  | connecting =>
      rw [before] at atStage
      simp only [before, afterConnect] at resumed
      obtain ⟨unmigrated, observed⟩ := atStage
      split at resumed
      · rename_i pool phase
        cases resumed
        obtain ⟨connected, past, once⟩ := connect.value_once phase
        refine ⟨⟨phase, connected, past, once, ?_, ?_⟩, ?_⟩
        · simp [unmigrated]
        · simp [unmigrated]
        · simp [unmigrated, observed, phase]
      · rename_i phase
        cases resumed
        exact ⟨observed.mpr phase, .inl unmigrated⟩
      · rename_i error phase
        cases resumed
        exact ⟨by simp [← Bool.not_eq_true, observed, phase], error, rfl, .inl ⟨phase, unmigrated⟩⟩
      · rename_i phase
        exact absurd phase connect.not_panicked
      · cases resumed
  | migrating pool =>
      rw [before] at atStage
      simp only [before, afterMigrate] at resumed
      obtain ⟨connected, observed⟩ := atStage
      split at resumed
      · rename_i phase
        cases resumed
        exact ⟨by simp [← Bool.not_eq_true, observed, phase], connected, phase⟩
      · rename_i phase
        cases resumed
        exact ⟨observed.mpr phase, phase, pool, connected⟩
      · rename_i error phase
        cases resumed
        exact ⟨by simp [← Bool.not_eq_true, observed, phase], error, rfl,
          .inr ⟨phase, pool, connected⟩⟩
      · rename_i phase
        exact absurd phase migrate.not_panicked
      · cases resumed
  | closingPool =>
      rw [before] at atStage
      simp only [before] at resumed
      cases resumed
      exact ⟨atStage.1, .inr atStage.2.2⟩
  | serving pool => simp [before] at resumed
  | returned result => simp [before] at resumed
  | panicked => simp [before] at resumed

/-!
## What startup guarantees
-/

/-- Polls of the operations whose failure would be number `2 ^ 32` or later of
its phase, be retried, and be warned about. -/
def WarningOverflows (build : Build) (state : Startup Pool) : StartupEvent Pool → Prop
  | .pollConnect (some (.error error)) =>
      state.connect.WarningOverflows build isTransientConnectError error
  | .pollMigrate (some (.error error)) =>
      state.migrate.WarningOverflows build isTransientMigrateError error
  | _ => False

theorem Invariant.step (invariant : state.Invariant) {event : StartupEvent Pool}
    (fits : ¬ state.WarningOverflows build event)
    (stepped : (startup Pool build).step state event = some next) : next.Invariant := by
  cases event with
  | elapse duration =>
      simp only [startup] at stepped
      split at stepped
      · rename_i waits
        cases stepped
        exact invariant.elapse waits
      · cases stepped
  | cancel =>
      cases stepped
      exact invariant.cancel
  | pollToken => exact invariant.pollToken stepped
  | pollConnect ready =>
      refine invariant.pollConnect ?_ stepped
      intro error arrived
      rw [arrived] at fits
      exact fits
  | pollMigrate ready =>
      refine invariant.pollMigrate ?_ stepped
      intro error arrived
      rw [arrived] at fits
      exact fits
  | pollTimer => exact invariant.pollTimer stepped
  | resume =>
      obtain ⟨stage, resumed, rfl⟩ := Option.map_eq_some_iff.mp stepped
      exact invariant.resume resumed

theorem Invariant.no_start (invariant : state.Invariant) {event : StartupEvent Pool}
    (stepped : (startup Pool build).step state event = some next)
    (saw : state.sawCancelled = true) :
    next.connect.starts = state.connect.starts ∧ next.migrate.starts = state.migrate.starts := by
  have atStage := invariant.atStage
  unfold AtStage at atStage
  cases event with
  | elapse duration =>
      simp only [startup] at stepped
      split at stepped
      · cases stepped
        exact ⟨rfl, rfl⟩
      · cases stepped
  | cancel =>
      cases stepped
      exact ⟨rfl, rfl⟩
  | pollToken =>
      simp only [startup, Startup.pollToken] at stepped
      split at stepped
      · obtain ⟨after, polled, rfl⟩ := Option.map_eq_some_iff.mp stepped
        exact ⟨(RetryState.pollToken_histories polled).1, rfl⟩
      · obtain ⟨after, polled, rfl⟩ := Option.map_eq_some_iff.mp stepped
        exact ⟨rfl, (RetryState.pollToken_histories polled).1⟩
      · cases stepped
  | pollConnect ready =>
      simp only [startup, Startup.pollConnect] at stepped
      split at stepped
      · rename_i stage
        rw [stage] at atStage
        obtain ⟨after, polled, rfl⟩ := Option.map_eq_some_iff.mp stepped
        exact absurd (atStage.2.mp saw) (RetryState.pollOp_phase polled).1
      · cases stepped
  | pollMigrate ready =>
      simp only [startup, Startup.pollMigrate] at stepped
      split at stepped
      · rename_i pool stage
        rw [stage] at atStage
        obtain ⟨after, polled, rfl⟩ := Option.map_eq_some_iff.mp stepped
        exact absurd (atStage.2.mp saw) (RetryState.pollOp_phase polled).1
      · cases stepped
  | pollTimer =>
      simp only [startup, Startup.pollTimer] at stepped
      split at stepped
      · obtain ⟨after, polled, rfl⟩ := Option.map_eq_some_iff.mp stepped
        exact ⟨(RetryState.pollTimer_frame polled).2.2.1, rfl⟩
      · obtain ⟨after, polled, rfl⟩ := Option.map_eq_some_iff.mp stepped
        exact ⟨rfl, (RetryState.pollTimer_frame polled).2.2.1⟩
      · cases stepped
  | resume =>
      obtain ⟨stage, _, rfl⟩ := Option.map_eq_some_iff.mp stepped
      exact ⟨rfl, rfl⟩

def FailedWith (state : Startup Pool) (cause : StorageError) : Prop :=
  state.connect.phase = .returned (.error cause) ∧ state.migrate.starts = [] ∨
    state.migrate.phase = .returned (.error cause)

/-- Left alone, `run` returns `Ok(())` without serving. -/
def ShutsDown (build : Build) (state : Startup Pool) : Prop :=
  (∀ pool, state.stage ≠ .serving pool) ∧ (∀ error, state.stage ≠ .returned (.error error)) ∧
    ∃ resumes final, (startup Pool build).run state (List.replicate resumes .resume) = some final ∧
      final.stage = .returned (.ok ())

structure Behaves (build : Build) (before after : Startup Pool) : Prop where
  connect : after.connect.Obeys isTransientConnectError
  migrate : after.migrate.Obeys isTransientMigrateError
  connects_first : after.migrate.starts ≠ [] →
    ∃ pool connected, after.connect.successes = [(pool, connected)] ∧
      ∀ start ∈ after.migrate.starts, connected ≤ start
  serves : ∀ pool, after.stage = .serving pool →
    after.sawCancelled = false ∧
      ∃ connected migrated, after.connect.successes = [(pool, connected)] ∧
        after.migrate.successes = [((), migrated)] ∧ connected ≤ migrated
  fails : ∀ error, after.stage = .returned (.error error) →
    ∃ cause, error = .storage cause ∧ after.FailedWith cause
  not_panicked : after.stage ≠ .panicked
  no_start : before.sawCancelled = true →
    after.connect.starts = before.connect.starts ∧ after.migrate.starts = before.migrate.starts
  shuts_down : after.sawCancelled = true → after.ShutsDown build

theorem Invariant.connects_first (invariant : state.Invariant)
    (attempted : state.migrate.starts ≠ []) :
    ∃ pool connected, state.connect.successes = [(pool, connected)] ∧
      ∀ start ∈ state.migrate.starts, connected ≤ start := by
  suffices known : ∃ pool, state.Connected pool by
    obtain ⟨pool, _, connected, _, once, later, _⟩ := known
    exact ⟨pool, connected, once, later⟩
  have untouched : state.migrate ≠ {} := by
    intro fresh
    rw [fresh] at attempted
    exact attempted rfl
  have atStage := invariant.atStage
  unfold AtStage at atStage
  cases stage : state.stage with
  | connecting =>
      rw [stage] at atStage
      exact absurd atStage.1 untouched
  | migrating pool =>
      rw [stage] at atStage
      exact ⟨pool, atStage.1⟩
  | closingPool =>
      rw [stage] at atStage
      exact atStage.2.2
  | serving pool =>
      rw [stage] at atStage
      exact ⟨pool, atStage.2.1⟩
  | returned result =>
      rw [stage] at atStage
      cases result with
      | ok =>
          rcases atStage.2 with fresh | connected
          · exact absurd fresh untouched
          · exact connected
      | error error =>
          obtain ⟨_, _, _, fresh | connected⟩ := atStage
          · exact absurd fresh.2 untouched
          · exact connected.2
  | panicked =>
      rw [stage] at atStage
      exact atStage.elim

theorem Invariant.serves (invariant : state.Invariant) {pool : Pool}
    (stage : state.stage = .serving pool) :
    state.sawCancelled = false ∧
      ∃ connected migrated, state.connect.successes = [(pool, connected)] ∧
        state.migrate.successes = [((), migrated)] ∧ connected ≤ migrated := by
  have atStage := invariant.atStage
  unfold AtStage at atStage
  rw [stage] at atStage
  obtain ⟨unseen, ⟨_, connected, _, once, _, later⟩, phase⟩ := atStage
  obtain ⟨migrated, _, migratedOnce⟩ := invariant.migrate.value_once phase
  refine ⟨unseen, connected, migrated, once, migratedOnce, ?_⟩
  rw [migratedOnce] at later
  exact later _ List.mem_cons_self

theorem Invariant.fails (invariant : state.Invariant) {error : AppError}
    (stage : state.stage = .returned (.error error)) :
    ∃ cause, error = .storage cause ∧ state.FailedWith cause := by
  have atStage := invariant.atStage
  unfold AtStage at atStage
  rw [stage] at atStage
  obtain ⟨_, cause, storage, connecting | migrating⟩ := atStage
  · refine ⟨cause, storage, .inl ⟨connecting.1, ?_⟩⟩
    rw [connecting.2]
  · exact ⟨cause, storage, .inr migrating.1⟩

theorem Invariant.not_panicked (invariant : state.Invariant) : state.stage ≠ .panicked := by
  intro stage
  have atStage := invariant.atStage
  unfold AtStage at atStage
  rw [stage] at atStage
  exact atStage

theorem Invariant.shutsDown (invariant : state.Invariant) (saw : state.sawCancelled = true) :
    state.ShutsDown build := by
  have atStage := invariant.atStage
  unfold AtStage at atStage
  cases stage : state.stage with
  | connecting =>
      rw [stage] at atStage
      refine ⟨by simp [stage], by simp [stage], 1, { state with stage := .returned (.ok ()) }, ?_, rfl⟩
      simp [startup, Machine.run, Startup.resume, stage, afterConnect, atStage.2.mp saw]
  | migrating pool =>
      rw [stage] at atStage
      refine ⟨by simp [stage], by simp [stage], 2, { state with stage := .returned (.ok ()) }, ?_, rfl⟩
      simp [startup, Machine.run, Startup.resume, stage, afterMigrate, atStage.2.mp saw]
  | closingPool =>
      refine ⟨by simp [stage], by simp [stage], 1, { state with stage := .returned (.ok ()) }, ?_, rfl⟩
      simp [startup, Machine.run, Startup.resume, stage]
  | serving pool =>
      rw [stage] at atStage
      simp [saw] at atStage
  | returned result =>
      rw [stage] at atStage
      cases result with
      | ok => exact ⟨by simp [stage], by simp [stage], 0, state, rfl, stage⟩
      | error error => simp [saw] at atStage
  | panicked =>
      rw [stage] at atStage
      exact atStage.elim

theorem Invariant.behaves (before : state.Invariant) (after : next.Invariant)
    {event : StartupEvent Pool}
    (stepped : (startup Pool build).step state event = some next) :
    Behaves build state next where
  connect := after.connect.obeys
  migrate := after.migrate.obeys
  connects_first := after.connects_first
  serves := fun _ => after.serves
  fails := fun _ => after.fails
  not_panicked := after.not_panicked
  no_start := before.no_start stepped
  shuts_down := after.shutsDown

theorem Invariant.not_behaves (invariant : state.Invariant) {event : StartupEvent Pool}
    (overflows : state.WarningOverflows build event)
    (stepped : (startup Pool build).step state event = some next) :
    ¬ Behaves build state next := by
  intro behaves
  unfold WarningOverflows at overflows
  split at overflows
  · simp only [startup, Startup.pollConnect] at stepped
    split at stepped
    · obtain ⟨after, polled, rfl⟩ := Option.map_eq_some_iff.mp stepped
      have overflowed := invariant.connect.overflowed_of_warningOverflows overflows polled
      exact Bool.false_ne_true (behaves.connect.not_overflowed.symm.trans overflowed)
    · cases stepped
  · simp only [startup, Startup.pollMigrate] at stepped
    split at stepped
    · obtain ⟨after, polled, rfl⟩ := Option.map_eq_some_iff.mp stepped
      have overflowed := invariant.migrate.overflowed_of_warningOverflows overflows polled
      exact Bool.false_ne_true (behaves.migrate.not_overflowed.symm.trans overflowed)
    · cases stepped
  · exact overflows

end Startup

/-- Startup behaves in every run without the retried failure number `2 ^ 32` of
a phase under an enabled warning, and in no other. -/
theorem startup_behaves_iff (build : Build) (events : List (StartupEvent Pool)) :
    (startup Pool build).EveryStep (fun before _ after => Startup.Behaves build before after)
        {} events ↔
      (startup Pool build).EveryStep
        (fun before event _ => ¬ before.WarningOverflows build event) {} events := by
  apply @Machine.everyStep_iff _ _ _ Startup.Invariant
  · intro before event after invariant stepped
    constructor
    · intro behaves overflows
      exact invariant.not_behaves overflows stepped behaves
    · intro fits
      exact invariant.behaves (invariant.step fits stepped) stepped
  · intro before event after invariant stepped fits
    exact invariant.step fits stepped
  · exact Startup.Invariant.initial

/-!
## A database that never becomes reachable
-/

namespace Startup

variable {state : Startup Pool}

structure Retrying (attempts : Nat) (state : Startup Pool) : Prop where
  not_cancelled : state.cancelled = false
  stage : state.stage = .connecting
  phase : state.connect.phase = .attempt .token false
  attempt : state.connect.attempt = attempts

def unreachable : StorageError := .database .poolTimedOut

structure Asleep (attempts : Nat) (delay : Nanos) (state : Startup Pool) : Prop where
  not_cancelled : state.cancelled = false
  stage : state.stage = .connecting
  phase : state.connect.phase = .sleep .token (state.now + delay)
  attempt : state.connect.attempt = attempts

theorem Retrying.refused {attempts : Nat} (retrying : Retrying attempts state)
    (fits : attempts < u32Max) :
    ∃ final, (startup Pool build).run state
        [.pollToken, .pollConnect (some (.error unreachable))] = some final ∧
      Asleep attempts (Nanos.seconds (backoffDelay attempts)) final := by
  obtain ⟨notCancelled, stage, phase, rfl⟩ := retrying
  have quiet : state.connect.logOverflows build = false := by
    have narrow : ¬ 2 ^ 32 ≤ state.connect.attempt + 1 := by
      unfold u32Max at fits
      omega
    rw [RetryState.logOverflows, decide_eq_false narrow, Bool.and_false]
  refine ⟨{ state with
    sawCancelled := false
    connect := { state.connect with
      phase := .sleep .token
        (state.now + Nanos.seconds (backoffDelay state.connect.attempt))
      starts := state.connect.starts ++ [state.now]
      failures := state.connect.failures ++ [(unreachable, state.now)] } }, ?_, ?_⟩
  · have failed := @RetryState.fail_of_quiet _ _ isTransientConnectError build state.now
      { state.connect with phase := .attempt .other false } unreachable
      (state.connect.starts ++ [state.now]) rfl quiet
    simp [Machine.run, startup, Startup.pollToken, Startup.pollConnect, RetryState.pollToken,
      RetryState.pollOp, notCancelled, stage, phase, failed]
  · exact ⟨notCancelled, stage, rfl, rfl⟩

theorem Asleep.wakes {attempts : Nat} {delay : Nanos} (asleep : Asleep attempts delay state)
    (fits : attempts < u32Max) :
    ∃ final, (startup Pool build).run state [.elapse delay, .pollToken, .pollTimer] = some final ∧
      Retrying (attempts + 1) final := by
  obtain ⟨notCancelled, stage, phase, attempt⟩ := asleep
  have next : saturatingAdd attempts 1 = attempts + 1 := Nat.min_eq_left fits
  refine ⟨{ state with
    now := state.now + delay
    sawCancelled := false
    connect := { state.connect with
      phase := .attempt .token false
      attempt := attempts + 1 } }, ?_, ?_⟩
  · simp [Machine.run, startup, mayElapse, Startup.pollToken, Startup.pollTimer,
      RetryState.mayElapse, RetryState.pollToken, RetryState.pollTimer, notCancelled, stage, phase,
      attempt, next]
  · exact ⟨notCancelled, stage, rfl, rfl⟩

theorem retrying_reachable (attempts : Nat) (fits : attempts ≤ u32Max) :
    ∃ events state, (startup Pool build).run {} events = some state ∧
      Retrying attempts state := by
  induction attempts with
  | zero => exact ⟨[], {}, rfl, rfl, rfl, rfl, rfl⟩
  | succ attempts ih =>
      obtain ⟨events, state, ran, retrying⟩ := ih (by omega)
      obtain ⟨waiting, refused, asleep⟩ := @Retrying.refused _ build _ _ retrying (by omega)
      obtain ⟨final, woke, again⟩ := @Asleep.wakes _ build _ _ _ asleep (by omega)
      exact ⟨_, final, Machine.run_trans ran (Machine.run_trans refused woke), again⟩

theorem Retrying.overflows (retrying : Retrying u32Max state) (warned : build.warnEnabled = true) :
    ∃ waiting final, (startup Pool build).run state [.pollToken] = some waiting ∧
      (startup Pool build).step waiting (.pollConnect (some (.error unreachable))) = some final ∧
      final.connect.overflowed = true := by
  obtain ⟨notCancelled, stage, phase, attempt⟩ := retrying
  have full : state.connect.logOverflows build = true := by
    rw [RetryState.logOverflows, warned, attempt]
    decide
  let waiting : RetryState Pool StorageError := { state.connect with phase := .attempt .other false }
  let polled := { waiting with starts := waiting.starts ++ [state.now] }
  refine ⟨{ state with sawCancelled := false, connect := waiting },
    { state with
      sawCancelled := false
      connect := polled.fail build isTransientConnectError state.now unreachable }, ?_, ?_, ?_⟩
  · simp [Machine.run, startup, Startup.pollToken, RetryState.pollToken, notCancelled, stage, phase,
      waiting]
  · simp [startup, Startup.pollConnect, RetryState.pollOp, stage, waiting, polled]
  · have overflows : polled.logOverflows build = true := full
    simp [RetryState.fail, isTransientConnectError, unreachable, overflows]

end Startup

/-- With warnings enabled, the refused connection number `2 ^ 32` overflows the
counter that its warning shows. -/
theorem refused_connections_overflow :
    ¬ ∀ (build : Build) (events : List (StartupEvent Unit)),
      (startup Unit build).EveryStep (fun before _ after => Startup.Behaves build before after)
        {} events := by
  intro behaves
  let build : Build := { overflowChecks := true, warnEnabled := true }
  obtain ⟨events, state, ran, retrying⟩ :=
    @Startup.retrying_reachable Unit build u32Max (Nat.le_refl _)
  obtain ⟨waiting, final, polls, refused, overflowed⟩ :=
    @Startup.Retrying.overflows _ build _ retrying rfl
  have last := Machine.EveryStep.last (behaves build (events ++ [.pollToken] ++
    [.pollConnect (some (.error Startup.unreachable))])) (Machine.run_trans ran polls)
  have counts := (last final refused).connect.not_overflowed
  rw [overflowed] at counts
  cases counts

end BipaNodes.App
