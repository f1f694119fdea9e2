import BipaNodes.App.ProcessProperties

/-!
# The end of the process

Once the signal task has cancelled the token, `main` returns after a few steps,
wherever the cancellation has met it.
-/

set_option autoImplicit false

namespace BipaNodes.App

open Config (Env Parsers)
open Storage (StorageError)

variable {Pool SocketAddr Url : Type} {parsers : Parsers SocketAddr Url} {env : Env}
  {build : Build} {world : World}

/-!
## Retries
-/

namespace RetryState

variable {Value Error : Type} {state next : RetryState Value Error}

/-- A poll of the token ends a cancelled retry, at the latest after one of the
other branch. -/
def left (state : RetryState Value Error) : Nat :=
  match state.phase with
  | .attempt .other _ | .sleep .other _ => 2
  | .attempt .token _ | .sleep .token _ => 1
  | .returned _ | .panicked => 0

theorem left_le : state.left ≤ 2 := by
  unfold left
  split <;> simp

theorem left_pollToken (polled : state.pollToken true = some next) : next.left < state.left := by
  unfold pollToken at polled
  split at polled
  · next phase =>
      cases polled
      simp [left, phase]
  · next phase =>
      cases polled
      simp [left, phase]
  · cases polled

theorem left_fail (isTransient : Error → Bool) (now : Nanos) (error : Error) :
    (fail build isTransient now error state).left ≤ 1 := by
  unfold fail
  split
  · by_cases panics : (build.overflowChecks && state.logOverflows build) = true
    · simp [left, panics]
    · simp [left, panics]
  · simp [left]

theorem left_pollOp {isTransient : Error → Bool} {now : Nanos}
    {ready : Option (Except Error Value)}
    (polled : state.pollOp build isTransient now ready = some next) : next.left < state.left := by
  obtain ⟨started, phase, result⟩ := pollOp_cases polled
  have two : state.left = 2 := by simp [left, phase]
  rw [two]
  rcases result with pending | succeeded | failed
  · rw [pending.2]
    simp [left]
  · obtain ⟨value, _, rfl⟩ := succeeded
    simp [left]
  · obtain ⟨error, _, rfl⟩ := failed
    exact Nat.lt_succ_of_le (left_fail isTransient now error)

theorem left_pollTimer {now : Nanos} (polled : state.pollTimer now = some next) :
    next.left < state.left := by
  unfold pollTimer at polled
  split at polled
  · next phase =>
      split at polled
      · cases polled
        simp [left, phase]
      · cases polled
        simp [left, phase]
  · cases polled

/-- Until it has returned a call can be polled, whether or not its operation is
ready. -/
theorem polled_or_over (cancelled : Bool) (build : Build) (isTransient : Error → Bool)
    (now : Nanos) (state : RetryState Value Error) :
    (∃ next, state.pollToken cancelled = some next) ∨
      (∃ next, state.pollOp build isTransient now none = some next) ∨
      (∃ next, state.pollTimer now = some next) ∨
      (∃ result, state.phase = .returned result) ∨ state.phase = .panicked := by
  cases phase : state.phase with
  | attempt turn started =>
      cases turn with
      | token => cases cancelled <;> simp [pollToken, phase]
      | other => simp [pollOp, phase]
  | sleep turn wake =>
      cases turn with
      | token => cases cancelled <;> simp [pollToken, phase]
      | other =>
          right; right; left
          by_cases fired : wake ≤ now
          · simp [pollTimer, phase, fired]
          · simp [pollTimer, phase, fired]
  | returned result => simp
  | panicked => simp

end RetryState

/-!
## Startup
-/

namespace Startup

variable {state next : Startup Pool}

def left (state : Startup Pool) : Nat :=
  match state.stage with
  | .connecting => 5 + state.connect.left
  | .migrating _ => 2 + state.migrate.left
  | .closingPool => 1
  | .serving _ | .returned _ | .panicked => 0

/-- Time passes and signals arrive by themselves; the rest is done by `run`. -/
def Own : StartupEvent Pool → Prop
  | .elapse _ | .cancel => False
  | _ => True

instance : DecidablePred (Own : StartupEvent Pool → Prop) := fun event => by
  unfold Own
  split <;> infer_instance

theorem left_connect (connecting : state.stage = .connecting)
    {connect : RetryState Pool StorageError} (less : connect.left < state.connect.left) : left { state with connect } < state.left := by
  simp only [left, connecting]
  exact Nat.add_lt_add_left less 5

theorem left_migrate {pool : Pool} (migrating : state.stage = .migrating pool)
    {migrate : RetryState Unit StorageError} (less : migrate.left < state.migrate.left) :
    left { state with migrate } < state.left := by
  simp only [left, migrating]
  exact Nat.add_lt_add_left less 2

theorem left_resume {stage : Stage Pool} (resumed : state.resume = some stage) :
    left { state with stage } < state.left := by
  have migrate := state.migrate.left_le
  unfold Startup.resume at resumed
  split at resumed
  · next connecting =>
      have before : state.left = 5 + state.connect.left := by simp [left, connecting]
      unfold afterConnect at resumed
      split at resumed
      · cases resumed
        change 2 + state.migrate.left < state.left
        omega
      · cases resumed
        change 0 < state.left
        omega
      · cases resumed
        change 0 < state.left
        omega
      · cases resumed
        change 0 < state.left
        omega
      · cases resumed
  · next pool migrating =>
      have before : state.left = 2 + state.migrate.left := by simp [left, migrating]
      unfold afterMigrate at resumed
      split at resumed
      · cases resumed
        change 0 < state.left
        omega
      · cases resumed
        change 1 < state.left
        omega
      · cases resumed
        change 0 < state.left
        omega
      · cases resumed
        change 0 < state.left
        omega
      · cases resumed
  · next closing =>
      cases resumed
      simp [left, closing]
  · cases resumed

/-- Once the token is cancelled, time goes by at no cost and everything else
brings `run` nearer to its end. -/
theorem left_step (cancelled : state.cancelled = true) {event : StartupEvent Pool}
    (notCancel : event ≠ .cancel)
    (stepped : (startup Pool build).step state event = some next) :
    next.left ≤ state.left ∧ (Own event → next.left < state.left) := by
  have own (less : next.left < state.left) :
      next.left ≤ state.left ∧ (Own event → next.left < state.left) :=
    ⟨Nat.le_of_lt less, fun _ => less⟩
  cases event with
  | elapse duration =>
      simp only [startup] at stepped
      split at stepped
      · cases stepped
        exact ⟨Nat.le_refl _, fun isOwn => isOwn.elim⟩
      · cases stepped
  | cancel => exact absurd rfl notCancel
  | pollToken =>
      simp only [startup, Startup.pollToken, cancelled] at stepped
      split at stepped
      · next stage =>
          obtain ⟨connect, polled, rfl⟩ := Option.map_eq_some_iff.mp stepped
          exact own (left_connect stage (RetryState.left_pollToken polled))
      · next stage =>
          obtain ⟨migrate, polled, rfl⟩ := Option.map_eq_some_iff.mp stepped
          exact own (left_migrate stage (RetryState.left_pollToken polled))
      · cases stepped
  | pollConnect ready =>
      simp only [startup, Startup.pollConnect] at stepped
      split at stepped
      · next stage =>
          obtain ⟨connect, polled, rfl⟩ := Option.map_eq_some_iff.mp stepped
          exact own (left_connect stage (RetryState.left_pollOp polled))
      · cases stepped
  | pollMigrate ready =>
      simp only [startup, Startup.pollMigrate] at stepped
      split at stepped
      · next stage =>
          obtain ⟨migrate, polled, rfl⟩ := Option.map_eq_some_iff.mp stepped
          exact own (left_migrate stage (RetryState.left_pollOp polled))
      · cases stepped
  | pollTimer =>
      simp only [startup, Startup.pollTimer] at stepped
      split at stepped
      · next stage =>
          obtain ⟨connect, polled, rfl⟩ := Option.map_eq_some_iff.mp stepped
          exact own (left_connect stage (RetryState.left_pollTimer polled))
      · next stage =>
          obtain ⟨migrate, polled, rfl⟩ := Option.map_eq_some_iff.mp stepped
          exact own (left_migrate stage (RetryState.left_pollTimer polled))
      · cases stepped
  | resume =>
      obtain ⟨stage, resumed, rfl⟩ := Option.map_eq_some_iff.mp stepped
      exact own (left_resume resumed)

def Over (state : Startup Pool) : Prop :=
  match state.stage with
  | .serving _ | .returned _ | .panicked => True
  | _ => False

def CanMove (build : Build) (state : Startup Pool) : Prop :=
  ∃ event next, event ≠ .cancel ∧ Own event ∧ (startup Pool build).step state event = some next

theorem canMove (build : Build) (event : StartupEvent Pool) (notCancel : event ≠ .cancel)
    (isOwn : Own event) (allowed : ((startup Pool build).step state event).isSome = true) :
    state.CanMove build := by
  obtain ⟨next, stepped⟩ := Option.isSome_iff_exists.mp allowed
  exact ⟨event, next, notCancel, isOwn, stepped⟩

theorem afterConnect_isSome
    (ended : (∃ result, state.connect.phase = .returned result) ∨
      state.connect.phase = .panicked) : state.afterConnect.isSome = true := by
  unfold afterConnect
  rcases ended with returned | panicked
  · obtain ⟨result, returned⟩ := returned
    rw [returned]
    match result with
    | .ok (some _) | .ok none | .error _ => rfl
  · rw [panicked]
    rfl

theorem afterMigrate_isSome (pool : Pool)
    (ended : (∃ result, state.migrate.phase = .returned result) ∨
      state.migrate.phase = .panicked) : (state.afterMigrate pool).isSome = true := by
  unfold afterMigrate
  rcases ended with returned | panicked
  · obtain ⟨result, returned⟩ := returned
    rw [returned]
    match result with
    | .ok (some _) | .ok none | .error _ => rfl
  · rw [panicked]
    rfl

theorem canMove_of_not_over (build : Build) (running : ¬ state.Over) : state.CanMove build := by
  cases stage : state.stage with
  | connecting =>
      rcases state.connect.polled_or_over state.cancelled build isTransientConnectError state.now
        with polled | polled | polled | ended
      · obtain ⟨next, polled⟩ := polled
        exact canMove build .pollToken (by simp) trivial
          (by simp [startup, Startup.pollToken, stage, polled])
      · obtain ⟨next, polled⟩ := polled
        exact canMove build (.pollConnect none) (by simp) trivial
          (by simp [startup, Startup.pollConnect, stage, polled])
      · obtain ⟨next, polled⟩ := polled
        exact canMove build .pollTimer (by simp) trivial
          (by simp [startup, Startup.pollTimer, stage, polled])
      · exact canMove build .resume (by simp) trivial
          (by simp [startup, Startup.resume, stage, afterConnect_isSome ended])
  | migrating pool =>
      rcases state.migrate.polled_or_over state.cancelled build isTransientMigrateError state.now
        with polled | polled | polled | ended
      · obtain ⟨next, polled⟩ := polled
        exact canMove build .pollToken (by simp) trivial
          (by simp [startup, Startup.pollToken, stage, polled])
      · obtain ⟨next, polled⟩ := polled
        exact canMove build (.pollMigrate none) (by simp) trivial
          (by simp [startup, Startup.pollMigrate, stage, polled])
      · obtain ⟨next, polled⟩ := polled
        exact canMove build .pollTimer (by simp) trivial
          (by simp [startup, Startup.pollTimer, stage, polled])
      · exact canMove build .resume (by simp) trivial
          (by simp [startup, Startup.resume, stage, afterMigrate_isSome pool ended])
  | closingPool =>
      exact canMove build .resume (by simp) trivial (by simp [startup, Startup.resume, stage])
  | serving | returned | panicked => simp [Over, stage] at running

theorem left_le (state : Startup Pool) : state.left ≤ 7 := by
  have connect := state.connect.left_le
  have migrate := state.migrate.left_le
  unfold left
  split <;> omega

end Startup

/-!
## The process
-/

namespace Process

variable {state next : Process Pool}

def Own : ProcessEvent Pool → Prop
  | .startup event => Startup.Own event
  | .service event => Service.Own event
  | .enter | .exit => True
  | _ => False

instance : DecidablePred (Own : ProcessEvent Pool → Prop) := fun event => by
  unfold Own
  split <;> infer_instance

def Ended (state : Process Pool) : Prop :=
  match state.phase with
  | .exited _ | .panicked | .killed _ => True
  | _ => False

def left (state : Process Pool) : Nat :=
  match state.phase with
  | .starting => 8 + state.startup.left
  | .serving => 1 + state.service.left
  | _ => 0

structure Leaving (parsers : Parsers SocketAddr Url) (env : Env) (build : Build) (world : World)
    (state : Process Pool) : Prop extends Sound parsers env build world state where
  cancelled : state.watch.Cancelled

theorem Leaving.spawned (leaving : Leaving parsers env build world state) :
    state.watch ≠ .notSpawned := by
  obtain ⟨signal, cancelled⟩ := leaving.cancelled
  rw [cancelled]
  simp

theorem Leaving.startup_cancelled (leaving : Leaving parsers env build world state)
    (phase : state.phase = .starting) :
    state.startup.cancelled = true ∧ state.service = {} := by
  have atPhase := leaving.atPhase
  simp only [AtPhase, phase] at atPhase
  exact ⟨atPhase.2.1.mpr leaving.cancelled, atPhase.2.2⟩

theorem Leaving.ending (leaving : Leaving parsers env build world state)
    (phase : state.phase = .serving) : state.service.Ending := by
  have atPhase := leaving.atPhase
  simp only [AtPhase, phase] at atPhase
  exact ⟨leaving.joinable, atPhase.2.1 leaving.cancelled⟩

theorem Leaving.left_enter (leaving : Leaving parsers env build world state)
    (stepped : state.enter = some next) : next.watch = state.watch ∧ next.left < state.left := by
  unfold Process.enter at stepped
  split at stepped
  · next phase =>
      obtain ⟨cancelled, service⟩ := leaving.startup_cancelled phase
      have before : state.left = 8 + state.startup.left := by simp [left, phase]
      split at stepped
      · cases stepped
        refine ⟨rfl, ?_⟩
        rw [before]
        simp only [left, service, cancelled, if_true, Service.cancel, Service.left,
          Service.serveLeft, Service.loopLeft]
        omega
      · cases stepped
        refine ⟨rfl, ?_⟩
        change 0 < state.left
        omega
      · cases stepped
        refine ⟨rfl, ?_⟩
        change 0 < state.left
        omega
      · cases stepped
  · cases stepped

theorem left_exit (stepped : state.exit = some next) :
    next.watch = state.watch ∧ next.left < state.left := by
  unfold Process.exit at stepped
  split at stepped
  · next phase _ =>
      cases stepped
      refine ⟨rfl, ?_⟩
      have before : state.left = 1 + state.service.left := by simp [left, phase]
      change 0 < state.left
      omega
  · cases stepped

theorem hear_left {first : Signal} (cancelled : state.watch = .cancelled first) (signal : Signal) :
    (state.hear signal).watch = state.watch ∧ (state.hear signal).left ≤ state.left := by
  unfold Process.hear
  split
  · split
    · next waiting => cases cancelled.symm.trans waiting
    · exact ⟨rfl, Nat.le_refl _⟩
  · exact ⟨rfl, Nat.zero_le _⟩

theorem Leaving.left_step (leaving : Leaving parsers env build world state)
    {event : ProcessEvent Pool}
    (stepped : (process Pool parsers env build world).step state event = some next) :
    next.watch = state.watch ∧ next.left ≤ state.left ∧ (Own event → next.left < state.left) := by
  have atPhase := leaving.atPhase
  have spawned := leaving.spawned
  obtain ⟨signal, cancelled⟩ := leaving.cancelled
  unfold AtPhase at atPhase
  cases event with
  | initLogging | loadConfig | bind =>
      simp only [process, Process.initLogging, Process.loadConfig, Process.bind] at stepped
      split at stepped
      · next phase =>
          rw [phase] at atPhase
          exact absurd atPhase.1 spawned
      · cases stepped
  | listen => exact absurd cancelled ((listen_eq_some stepped).2.1 signal)
  | signal other =>
      simp only [process, Process.signal] at stepped
      split at stepped
      all_goals cases stepped
      obtain ⟨watch, most⟩ := hear_left cancelled other
      exact ⟨watch, most, fun isOwn => isOwn.elim⟩
  | cancelToken => simp [process, Process.cancelToken, cancelled] at stepped
  | startup event =>
      obtain ⟨phase, notCancel, startup, moved, rfl⟩ := startupStep_eq_some stepped
      have less := Startup.left_step (leaving.startup_cancelled phase).1 notCancel moved
      simp only [left, phase]
      refine ⟨trivial, by omega, fun isOwn => ?_⟩
      have strictly := less.2 isOwn
      omega
  | enter =>
      obtain ⟨watch, less⟩ := leaving.left_enter stepped
      exact ⟨watch, Nat.le_of_lt less, fun _ => less⟩
  | service event =>
      obtain ⟨phase, _, _, service, moved, rfl⟩ := serviceStep_eq_some stepped
      have less := (leaving.ending phase).left_step moved
      simp only [left, phase]
      refine ⟨trivial, by omega, fun isOwn => ?_⟩
      have strictly := less.2 isOwn
      omega
  | exit =>
      obtain ⟨watch, less⟩ := left_exit stepped
      exact ⟨watch, Nat.le_of_lt less, fun _ => less⟩

def CanMove (parsers : Parsers SocketAddr Url) (env : Env) (build : Build) (world : World)
    (state : Process Pool) : Prop :=
  ∃ event next, Own event ∧ (process Pool parsers env build world).step state event = some next

theorem enter_isSome (phase : state.phase = .starting) (ended : state.startup.Over) :
    ∃ next, state.enter = some next := by
  unfold Startup.Over at ended
  unfold Process.enter
  rw [phase]
  cases stage : state.startup.stage with
  | serving pool => exact ⟨_, rfl⟩
  | returned result => exact ⟨_, rfl⟩
  | panicked => exact ⟨_, rfl⟩
  | _ =>
      rw [stage] at ended
      exact ended.elim

theorem startupStep_of_moved (phase : state.phase = .starting) {event : StartupEvent Pool}
    (notCancel : event ≠ .cancel) {startup : Startup Pool}
    (moved : (App.startup Pool build).step state.startup event = some startup) :
    state.startupStep build event = some { state with startup } := by
  unfold Process.startupStep
  rw [phase]
  cases event with
  | cancel => exact absurd rfl notCancel
  | _ => exact Option.map_eq_some_iff.mpr ⟨startup, moved, rfl⟩

theorem serviceStep_of_moved (phase : state.phase = .serving)
    (cancelled : state.service.cancelled = true) {event : ServiceEvent}
    (isOwn : Service.Own event) {service : Service}
    (moved : (App.service world).step state.service event = some service) :
    state.serviceStep world event = some { state with service } := by
  unfold Process.serviceStep
  rw [phase]
  cases event with
  | serverStops served =>
      cases served with
      | ok =>
          dsimp only
          rw [if_pos cancelled]
          exact Option.map_eq_some_iff.mpr ⟨service, moved, rfl⟩
      | error cause => exact Option.map_eq_some_iff.mpr ⟨service, moved, rfl⟩
  | cancel => exact isOwn.elim
  | _ => exact Option.map_eq_some_iff.mpr ⟨service, moved, rfl⟩

theorem Leaving.canMove (leaving : Leaving parsers env build world state)
    (running : ¬ state.Ended) : state.CanMove parsers env build world := by
  have atPhase := leaving.atPhase
  unfold AtPhase at atPhase
  cases phase : state.phase with
  | initialising | configuring | binding =>
      rw [phase] at atPhase
      exact absurd atPhase.1 leaving.spawned
  | starting =>
      by_cases ended : state.startup.Over
      · obtain ⟨next, entered⟩ := enter_isSome phase ended
        exact ⟨.enter, next, trivial, entered⟩
      · obtain ⟨event, startup, notCancel, isOwn, moved⟩ :=
          Startup.canMove_of_not_over build ended
        exact ⟨.startup event, _, isOwn, startupStep_of_moved phase notCancel moved⟩
  | serving =>
      have ending := leaving.ending phase
      by_cases returned : state.service.Returned
      · obtain ⟨result, returned⟩ := returned
        refine ⟨.exit, { state with phase := .exited (result.mapError .app) }, trivial, ?_⟩
        simp [process, Process.exit, phase, returned]
      · obtain ⟨event, service, isOwn, moved⟩ := ending.canMove world returned
        exact ⟨.service event, _, isOwn, serviceStep_of_moved phase ending.cancelled isOwn moved⟩
  | exited | panicked | killed => simp [Ended, phase] at running

theorem Sound.left_le (sound : Sound parsers env build world state) : state.left ≤ 15 := by
  have startup := state.startup.left_le
  have service := sound.joinable.orderly.left_le
  unfold left
  split <;> omega

theorem Leaving.step (leaving : Leaving parsers env build world state)
    {event : ProcessEvent Pool}
    (stepped : (process Pool parsers env build world).step state event = some next) :
    Leaving parsers env build world next := by
  refine ⟨leaving.toSound.step stepped, ?_⟩
  rw [(leaving.left_step stepped).1]
  exact leaving.cancelled

end Process

/-- What is left of a process whose token is cancelled. -/
def leaving (Pool : Type) (parsers : Parsers SocketAddr Url) (env : Env) (build : Build)
    (world : World) : Progress (process Pool parsers env build world) where
  invariant := Process.Leaving parsers env build world
  own := Process.Own
  done := Process.Ended
  measure := Process.left
  preserves leaving stepped := leaving.step stepped
  bounded leaving stepped := (leaving.left_step stepped).2.1
  decreases leaving isOwn stepped := (leaving.left_step stepped).2.2 isOwn
  enabled leaving running := leaving.canMove running

/-- Wherever the cancellation meets `main`, connecting, migrating or serving, it
returns after at most fifteen steps of its own. It is never stuck before: an
attempt under way can always be answered, an exchange can always fail, and the
server can always end. -/
theorem process_terminates (parsers : Parsers SocketAddr Url) (env : Env) (build : Build)
    (world : World) {before events : List (ProcessEvent Pool)} {state final : Process Pool}
    (ranBefore : (process Pool parsers env build world).run {} before = some state)
    (cancelled : state.watch.Cancelled)
    (ran : (process Pool parsers env build world).run state events = some final) :
    events.countP (fun event => Process.Own event) ≤ 15 ∧
      (¬ final.Ended → final.CanMove parsers env build world) ∧
      ∃ rest last, (process Pool parsers env build world).run final rest = some last ∧
        last.Ended ∧ (∀ event ∈ rest, Process.Own event) ∧
        events.countP (fun event => Process.Own event) + rest.length ≤ 15 := by
  have sound := Process.sound_of_run ranBefore
  have initially : (leaving Pool parsers env build world).invariant state := ⟨sound, cancelled⟩
  exact @Progress.terminates _ _ _ (leaving Pool parsers env build world) _ _ _
    (inferInstanceAs (DecidablePred Process.Own)) _ initially sound.left_le ran

/-- SIGTERM while an attempt to connect is under way. -/
theorem process_terminates_sample :
    let parsers := Config.sampleParsers
    let env := sampleEnv
    let machine := process Unit parsers env { overflowChecks := true, warnEnabled := true }
      emptyWorld
    let before : List (ProcessEvent Unit) :=
      [.listen .terminate true, .startup .pollToken, .signal .terminate, .cancelToken]
    let events : List (ProcessEvent Unit) :=
      [.startup (.pollConnect none), .startup (.elapse 5), .startup .pollToken]
    ∃ final rest last, machine.run {} (([.initLogging (.ok ()), .loadConfig, .bind (.ok ())] ++
        before) ++ events) = some final ∧ machine.run final rest = some last ∧ last.Ended ∧
      events.countP (fun event => Process.Own event) + rest.length ≤ 15 := by
  intro parsers env machine before events
  have cancels : ∃ state final, machine.run { phase := .starting, watch := .waiting } before =
      some state ∧ state.watch.Cancelled ∧ machine.run state events = some final :=
    ⟨_, _, rfl, ⟨.terminate, rfl⟩, rfl⟩
  obtain ⟨state, final, ranOn, cancelled, ran⟩ := cancels
  have ranBefore := Machine.run_trans (Process.run_starts Unit _ _ loads_sampleEnv) ranOn
  obtain ⟨_, _, rest, last, ranRest, ended, _, short⟩ :=
    process_terminates parsers env _ _ ranBefore cancelled ran
  exact ⟨final, rest, last, Machine.run_trans ranBefore ran, ranRest, ended, short⟩

end BipaNodes.App
