import BipaNodes.App.Process
import BipaNodes.App.Progress
import BipaNodes.App.StartupProperties
import BipaNodes.Config.LoadProperties

/-!
# Lifecycle of the process

What an exit says about the run before it.
-/

set_option autoImplicit false

namespace BipaNodes.App

open Config (Env Parsers)

variable {Pool SocketAddr Url : Type} {parsers : Parsers SocketAddr Url} {env : Env}
  {build : Build} {world : World}

/-!
## Startup and cancellation
-/

namespace Startup

variable {state next : Startup Pool}

/-- Startup ends without an error only where it has seen the cancellation. -/
structure SeesShutdown (state : Startup Pool) : Prop where
  connect : state.connect.phase = .returned (.ok none) → state.cancelled = true
  migrate : state.migrate.phase = .returned (.ok none) → state.cancelled = true
  closing : state.stage = .closingPool → state.cancelled = true
  returned : state.stage = .returned (.ok ()) → state.cancelled = true

theorem SeesShutdown.resume (sees : state.SeesShutdown) {stage : Stage Pool}
    (resumed : state.resume = some stage)
    (shutsDown : stage = .closingPool ∨ stage = .returned (.ok ())) : state.cancelled = true := by
  unfold Startup.resume at resumed
  split at resumed
  · unfold afterConnect at resumed
    split at resumed
    · cases resumed
      simp at shutsDown
    · next phase => exact sees.connect phase
    · cases resumed
      simp at shutsDown
    · cases resumed
      simp at shutsDown
    · cases resumed
  · unfold afterMigrate at resumed
    split at resumed
    · cases resumed
      simp at shutsDown
    · next phase => exact sees.migrate phase
    · cases resumed
      simp at shutsDown
    · cases resumed
      simp at shutsDown
    · cases resumed
  · next closing => exact sees.closing closing
  · cases resumed

theorem SeesShutdown.step (sees : state.SeesShutdown) {event : StartupEvent Pool}
    (stepped : (startup Pool build).step state event = some next) : next.SeesShutdown := by
  cases event with
  | elapse duration =>
      simp only [startup] at stepped
      split at stepped
      · cases stepped
        exact ⟨sees.connect, sees.migrate, sees.closing, sees.returned⟩
      · cases stepped
  | cancel =>
      cases stepped
      exact ⟨fun _ => rfl, fun _ => rfl, fun _ => rfl, fun _ => rfl⟩
  | pollToken =>
      simp only [startup, Startup.pollToken] at stepped
      split at stepped
      · obtain ⟨connect, polled, rfl⟩ := Option.map_eq_some_iff.mp stepped
        exact ⟨(RetryState.pollToken_returned_iff polled).mp, sees.migrate, sees.closing,
          sees.returned⟩
      · obtain ⟨migrate, polled, rfl⟩ := Option.map_eq_some_iff.mp stepped
        exact ⟨sees.connect, (RetryState.pollToken_returned_iff polled).mp, sees.closing,
          sees.returned⟩
      · cases stepped
  | pollConnect ready =>
      simp only [startup, Startup.pollConnect] at stepped
      split at stepped
      · obtain ⟨connect, polled, rfl⟩ := Option.map_eq_some_iff.mp stepped
        exact ⟨fun ended => absurd ended (RetryState.pollOp_phase polled).2, sees.migrate,
          sees.closing, sees.returned⟩
      · cases stepped
  | pollMigrate ready =>
      simp only [startup, Startup.pollMigrate] at stepped
      split at stepped
      · obtain ⟨migrate, polled, rfl⟩ := Option.map_eq_some_iff.mp stepped
        exact ⟨sees.connect, fun ended => absurd ended (RetryState.pollOp_phase polled).2,
          sees.closing, sees.returned⟩
      · cases stepped
  | pollTimer =>
      simp only [startup, Startup.pollTimer] at stepped
      split at stepped
      · obtain ⟨connect, polled, rfl⟩ := Option.map_eq_some_iff.mp stepped
        exact ⟨fun ended => absurd ended ((RetryState.pollTimer_frame polled).2.1 none),
          sees.migrate, sees.closing, sees.returned⟩
      · obtain ⟨migrate, polled, rfl⟩ := Option.map_eq_some_iff.mp stepped
        exact ⟨sees.connect,
          fun ended => absurd ended ((RetryState.pollTimer_frame polled).2.1 none),
          sees.closing, sees.returned⟩
      · cases stepped
  | resume =>
      obtain ⟨stage, resumed, rfl⟩ := Option.map_eq_some_iff.mp stepped
      exact ⟨sees.connect, sees.migrate, fun closing => sees.resume resumed (.inl closing),
        fun returned => sees.resume resumed (.inr returned)⟩

theorem seesShutdown_of_run {events : List (StartupEvent Pool)}
    (ran : (startup Pool build).run {} events = some state) : state.SeesShutdown := by
  have initially : SeesShutdown ({} : Startup Pool) := by
    refine ⟨?_, ?_, ?_, ?_⟩ <;> intro ended <;> cases ended
  exact Machine.run_preserves (fun _ _ _ sees stepped => SeesShutdown.step sees stepped)
    initially ran

theorem cancelled_step {event : StartupEvent Pool} (notCancel : event ≠ .cancel)
    (stepped : (startup Pool build).step state event = some next) :
    next.cancelled = state.cancelled := by
  cases event with
  | cancel => exact absurd rfl notCancel
  | elapse duration =>
      simp only [startup] at stepped
      split at stepped
      · cases stepped
        rfl
      · cases stepped
  | resume =>
      obtain ⟨stage, _, rfl⟩ := Option.map_eq_some_iff.mp stepped
      rfl
  | pollToken | pollConnect | pollMigrate | pollTimer =>
      simp only [startup, Startup.pollToken, Startup.pollConnect, Startup.pollMigrate,
        Startup.pollTimer] at stepped
      split at stepped
      all_goals
        first
        | cases stepped
        | obtain ⟨_, _, rfl⟩ := Option.map_eq_some_iff.mp stepped; rfl

end Startup

namespace Service

variable {state next : Service}

/-- Nothing but the end of the server and a cancellation touches the two flags. -/
theorem flags_frame {event : ServiceEvent} (notCancel : event ≠ .cancel)
    (notCancelToken : event ≠ .cancelToken) (notStops : ∀ served, event ≠ .serverStops served)
    (stepped : (service world).step state event = some next) :
    next.cancelled = state.cancelled ∧ next.served = state.served := by
  cases event with
  | cancel => exact absurd rfl notCancel
  | cancelToken => exact absurd rfl notCancelToken
  | serverStops served => exact absurd rfl (notStops served)
  | buildFails | spawnImporter | closePool | spawnImport | log =>
      simp only [service, Service.buildFails, Service.spawnImporter, Service.closePool,
        Service.spawnImport, Service.log] at stepped
      split at stepped
      · cases stepped
        exact ⟨rfl, rfl⟩
      · cases stepped
  | joinImporter | pollToken | pollTick | joinImport =>
      simp only [service, Service.joinImporter, Service.pollToken, Service.pollTick,
        Service.joinImport] at stepped
      split at stepped
      · split at stepped
        all_goals
          first
          | cases stepped; exact ⟨rfl, rfl⟩
          | cases stepped
      · cases stepped
  | crash =>
      simp only [service, Service.crash] at stepped
      split at stepped
      all_goals
        first
        | cases stepped; exact ⟨rfl, rfl⟩
        | cases stepped
  | _ =>
      cases step_effect stepped with
      | control isControl => exact isControl.elim
      | _ => exact ⟨rfl, rfl⟩

/-- Apart from a cancellation from outside, only `serve` cancels the token, when
its server has ended. -/
theorem flags_step {event : ServiceEvent} (orderly : state.Orderly) (notCancel : event ≠ .cancel)
    (stepped : (service world).step state event = some next) :
    (next.cancelled = true → state.cancelled = true ∨ next.served ≠ none) ∧
      (state.served ≠ none → next.served ≠ none) ∧
      ∀ served, next.served = some served → state.served = some served ∨
        event = .serverStops served ∧ state.served = none := by
  have atServe := orderly.atServe
  unfold AtServe at atServe
  by_cases stops : ∃ served, event = .serverStops served
  · obtain ⟨served, rfl⟩ := stops
    simp only [service, Service.serverStops] at stepped
    split at stepped
    · next serve =>
        rw [serve] at atServe
        cases stepped
        simp [atServe.2]
    · cases stepped
  · by_cases cancels : event = .cancelToken
    · subst cancels
      simp only [service, Service.cancelToken] at stepped
      split at stepped
      · next served serve =>
          rw [serve] at atServe
          cases stepped
          simp [Service.cancel, atServe.2]
      · cases stepped
    · obtain ⟨cancelled, served⟩ := flags_frame notCancel cancels (not_exists.mp stops) stepped
      rw [cancelled, served]
      exact ⟨.inl, id, fun _ => .inl⟩

end Service

/-!
## Invariant
-/

def Watch.Cancelled (watch : Watch) : Prop := ∃ signal, watch = .cancelled signal

namespace Process

variable {state next : Process Pool}

def AtPhase (state : Process Pool) : Prop :=
  match state.phase with
  | .initialising | .configuring | .binding =>
      state.watch = .notSpawned ∧ state.startup = {} ∧ state.service = {}
  | .starting =>
      state.watch ≠ .notSpawned ∧ (state.startup.cancelled = true ↔ state.watch.Cancelled) ∧
        state.service = {}
  | .serving =>
      state.watch ≠ .notSpawned ∧ (state.watch.Cancelled → state.service.cancelled = true) ∧
        (state.service.cancelled = true → state.watch.Cancelled ∨ state.service.served ≠ none) ∧
        (state.service.served = some (.ok ()) → state.watch.Cancelled)
  | .exited result =>
      (result = .ok () → state.watch.Cancelled) ∧
        (state.watch = .notSpawned → state.startup = {} ∧ state.service = {}) ∧
        (state.service = {} ∨ ∃ served, state.service.serve = .returned served)
  | .panicked | .killed _ => True

structure Sound (parsers : Parsers SocketAddr Url) (env : Env) (build : Build) (world : World)
    (state : Process Pool) : Prop where
  startup : ∃ events, (App.startup Pool build).run {} events = some state.startup
  service : ∃ events, (App.service world).run {} events = some state.service
  /-- Only a listener that is in place hears a signal. -/
  heard : ∀ signal, state.watch = .heard signal ∨ state.watch = .cancelled signal →
    state.listeners signal = .listening
  /-- Nothing is bound or spawned without a valid configuration. -/
  configured : state.phase = .binding ∨ state.watch ≠ .notSpawned →
    ∃ config, Config.fromEnv parsers env = .ok config
  atPhase : state.AtPhase

theorem Sound.initial : Sound parsers env build world ({} : Process Pool) where
  startup := ⟨[], rfl⟩
  service := ⟨[], rfl⟩
  heard := by simp
  configured := by simp
  atPhase := ⟨rfl, rfl, rfl⟩

theorem Sound.initLogging (sound : Sound parsers env build world state)
    {result : Except String Unit} (stepped : state.initLogging result = some next) :
    Sound parsers env build world next := by
  have atPhase := sound.atPhase
  unfold AtPhase at atPhase
  unfold Process.initLogging at stepped
  split at stepped
  · next phase =>
      rw [phase] at atPhase
      obtain ⟨unspawned, initially⟩ := atPhase
      split at stepped
      · cases stepped
        exact ⟨sound.startup, sound.service, sound.heard, by simp [unspawned], unspawned, initially⟩
      · cases stepped
        exact ⟨sound.startup, sound.service, sound.heard, by simp [unspawned], by simp,
          fun _ => initially, .inl initially.2⟩
  · cases stepped

theorem Sound.loadConfig (sound : Sound parsers env build world state)
    (stepped : state.loadConfig parsers env = some next) :
    Sound parsers env build world next := by
  have atPhase := sound.atPhase
  unfold AtPhase at atPhase
  unfold Process.loadConfig at stepped
  split at stepped
  · next phase =>
      rw [phase] at atPhase
      obtain ⟨unspawned, initially⟩ := atPhase
      split at stepped
      · next config loaded =>
          cases stepped
          exact ⟨sound.startup, sound.service, sound.heard, fun _ => ⟨config, loaded⟩, unspawned,
            initially⟩
      · cases stepped
        exact ⟨sound.startup, sound.service, sound.heard, by simp [unspawned], by simp,
          fun _ => initially, .inl initially.2⟩
  · cases stepped

theorem Sound.bind (sound : Sound parsers env build world state) {result : Except String Unit}
    (stepped : state.bind result = some next) : Sound parsers env build world next := by
  have atPhase := sound.atPhase
  unfold AtPhase at atPhase
  unfold Process.bind at stepped
  split at stepped
  · next phase =>
      rw [phase] at atPhase
      obtain ⟨unspawned, initially⟩ := atPhase
      split at stepped
      · cases stepped
        refine ⟨sound.startup, sound.service, by simp, fun _ => sound.configured (.inl phase),
          by simp, ?_, initially.2⟩
        simp [initially.1, Watch.Cancelled]
      · cases stepped
        exact ⟨sound.startup, sound.service, sound.heard, by simp [unspawned], by simp,
          fun _ => initially, .inl initially.2⟩
  · cases stepped

theorem Sound.spawned (sound : Sound parsers env build world state)
    (spawned : state.watch ≠ .notSpawned) : ∃ config, Config.fromEnv parsers env = .ok config :=
  sound.configured (.inr spawned)

theorem listen_eq_some {signal : Signal} {installed : Bool}
    (stepped : state.listen signal installed = some next) :
    state.listeners signal = .unpolled ∧ (∀ other, state.watch ≠ .cancelled other) ∧
      next = { state with
        listeners := Function.update state.listeners signal
          (if installed then .listening else .deaf) } := by
  unfold Process.listen at stepped
  split at stepped
  all_goals
    first
    | next watch unpolled => cases stepped; simp [watch, unpolled]
    | cases stepped

theorem Sound.listen (sound : Sound parsers env build world state) {signal : Signal}
    {installed : Bool} (stepped : state.listen signal installed = some next) : Sound parsers env build world next := by
  obtain ⟨unpolled, _, rfl⟩ := listen_eq_some stepped
  refine ⟨sound.startup, sound.service, ?_, sound.configured, sound.atPhase⟩
  intro other heard
  have listening := sound.heard other heard
  have different : other ≠ signal := by
    intro same
    rw [same, unpolled] at listening
    cases listening
  change Function.update state.listeners signal _ other = .listening
  rw [Function.update_of_ne different]
  exact listening

theorem AtPhase.hear (atPhase : state.AtPhase) (waiting : state.watch = .waiting)
    (signal : Signal) : AtPhase { state with watch := .heard signal } := by
  have waitingStill : ¬ Watch.waiting.Cancelled := by simp [Watch.Cancelled]
  have notYet : ¬ (Watch.heard signal).Cancelled := by simp [Watch.Cancelled]
  unfold AtPhase at atPhase ⊢
  rw [waiting] at atPhase
  cases phase : state.phase with
  | initialising | configuring | binding => simp [phase] at atPhase
  | starting | serving | exited result =>
      simpa [phase, waitingStill, notYet] using atPhase
  | panicked | killed => trivial

theorem Sound.hear (sound : Sound parsers env build world state) (signal : Signal) :
    Sound parsers env build world (state.hear signal) := by
  unfold Process.hear
  split
  · next listening =>
      split
      · next waiting =>
          have configured := sound.spawned (by simp [waiting])
          refine ⟨sound.startup, sound.service, ?_, fun _ => configured,
            sound.atPhase.hear waiting signal⟩
          intro other heard
          simp only [Watch.heard.injEq, reduceCtorEq, or_false] at heard
          exact heard ▸ listening
      · exact sound
  · refine ⟨sound.startup, sound.service, sound.heard, ?_, trivial⟩
    rintro (binding | spawned)
    · cases binding
    · exact sound.spawned spawned

theorem Sound.cancelToken (sound : Sound parsers env build world state)
    (stepped : state.cancelToken = some next) : Sound parsers env build world next := by
  have atPhase := sound.atPhase
  unfold AtPhase at atPhase
  unfold Process.cancelToken at stepped
  split at stepped
  · next signal heard =>
      have listening : ∀ other, Watch.cancelled signal = .heard other ∨
          Watch.cancelled signal = .cancelled other → state.listeners other = .listening := by
        intro other same
        simp only [reduceCtorEq, Watch.cancelled.injEq, false_or] at same
        exact sound.heard other (.inl (same ▸ heard))
      have cancelled : (Watch.cancelled signal).Cancelled := ⟨signal, rfl⟩
      have configured := sound.spawned (by simp [heard])
      split at stepped
      · next phase =>
          rw [phase] at atPhase
          obtain ⟨_, _, service⟩ := atPhase
          cases stepped
          obtain ⟨events, ran⟩ := sound.startup
          refine ⟨⟨events ++ [.cancel], Machine.run_trans ran rfl⟩, sound.service, listening,
            fun _ => configured, ?_⟩
          simp [AtPhase, phase, cancelled, service]
      · next phase =>
          cases stepped
          obtain ⟨events, ran⟩ := sound.service
          refine ⟨sound.startup, ⟨events ++ [.cancel], Machine.run_trans ran rfl⟩, listening,
            fun _ => configured, ?_⟩
          simp [AtPhase, phase, cancelled, Service.cancel]
      · cases stepped
  · cases stepped

theorem startupStep_eq_some {event : StartupEvent Pool}
    (stepped : state.startupStep build event = some next) :
    state.phase = .starting ∧ event ≠ .cancel ∧
      ∃ startup, (App.startup Pool build).step state.startup event = some startup ∧
        next = { state with startup } := by
  unfold Process.startupStep at stepped
  split at stepped
  · cases stepped
  · next phase notCancel =>
      obtain ⟨startup, moved, rfl⟩ := Option.map_eq_some_iff.mp stepped
      exact ⟨phase, notCancel, startup, moved, rfl⟩
  · cases stepped

theorem Sound.startupStep (sound : Sound parsers env build world state) {event : StartupEvent Pool}
    (stepped : state.startupStep build event = some next) : Sound parsers env build world next := by
  obtain ⟨phase, notCancel, startup, moved, rfl⟩ := startupStep_eq_some stepped
  have atPhase := sound.atPhase
  simp only [AtPhase, phase] at atPhase
  obtain ⟨events, ran⟩ := sound.startup
  have same := Startup.cancelled_step notCancel moved
  refine ⟨⟨events ++ [event], Machine.run_trans ran ?_⟩, sound.service, sound.heard,
    sound.configured, ?_⟩
  · rw [Machine.run_singleton, moved]
  · simp only [AtPhase, phase, same]
    exact atPhase

theorem Sound.enter (sound : Sound parsers env build world state)
    (stepped : state.enter = some next) : Sound parsers env build world next := by
  have atPhase := sound.atPhase
  unfold AtPhase at atPhase
  obtain ⟨events, ran⟩ := sound.startup
  have sees := Startup.seesShutdown_of_run ran
  unfold Process.enter at stepped
  split at stepped
  · next phase =>
      rw [phase] at atPhase
      obtain ⟨spawned, cancelled, service⟩ := atPhase
      have configured := sound.spawned spawned
      split at stepped
      · cases stepped
        rw [service]
        by_cases isCancelled : state.startup.cancelled = true
        · have watch := cancelled.mp isCancelled
          refine ⟨sound.startup, ⟨[.cancel], ?_⟩, sound.heard, fun _ => configured, spawned, ?_, ?_,
            ?_⟩
          · simp [isCancelled, Machine.run, App.service]
          · simp [isCancelled, Service.cancel]
          · exact fun _ => .inl watch
          · exact fun _ => watch
        · have watch := mt cancelled.mpr isCancelled
          refine ⟨sound.startup, ⟨[], ?_⟩, sound.heard, fun _ => configured, spawned, ?_, ?_, ?_⟩
          · simp [isCancelled, Machine.run]
          · exact fun watched => absurd watched watch
          · simp [isCancelled]
          · simp [isCancelled]
      · next result returned =>
          cases stepped
          refine ⟨sound.startup, sound.service, sound.heard, fun _ => configured, ?_,
            fun never => absurd never spawned, .inl service⟩
          intro success
          cases result with
          | ok => exact cancelled.mp (sees.returned returned)
          | error error => cases success
      · cases stepped
        exact ⟨sound.startup, sound.service, sound.heard, fun _ => configured, trivial⟩
      · cases stepped
  · cases stepped

theorem serviceStep_eq_some {event : ServiceEvent}
    (stepped : state.serviceStep world event = some next) :
    state.phase = .serving ∧ event ≠ .cancel ∧
      (event = .serverStops (.ok ()) → state.service.cancelled = true) ∧
      ∃ service, (App.service world).step state.service event = some service ∧
        next = { state with service } := by
  unfold Process.serviceStep at stepped
  split at stepped
  · cases stepped
  · next phase =>
      split at stepped
      · next cancelled =>
          obtain ⟨service, moved, rfl⟩ := Option.map_eq_some_iff.mp stepped
          exact ⟨phase, by simp, fun _ => cancelled, service, moved, rfl⟩
      · cases stepped
  · next phase notCancel notStops =>
      obtain ⟨service, moved, rfl⟩ := Option.map_eq_some_iff.mp stepped
      exact ⟨phase, notCancel, fun stops => absurd stops notStops, service, moved, rfl⟩
  · cases stepped

theorem Sound.joinable (sound : Sound parsers env build world state) : state.service.Joinable := by
  obtain ⟨events, ran⟩ := sound.service
  exact Service.joinable_of_run ran

theorem Sound.serviceStep (sound : Sound parsers env build world state) {event : ServiceEvent}
    (stepped : state.serviceStep world event = some next) : Sound parsers env build world next := by
  obtain ⟨phase, notCancel, graceful, service, moved, rfl⟩ := serviceStep_eq_some stepped
  have atPhase := sound.atPhase
  simp only [AtPhase, phase] at atPhase
  obtain ⟨spawned, cancels, cancelled, succeeded⟩ := atPhase
  obtain ⟨events, ran⟩ := sound.service
  obtain ⟨flag, kept, served⟩ := Service.flags_step sound.joinable.orderly notCancel moved
  refine ⟨sound.startup, ⟨events ++ [event], Machine.run_trans ran ?_⟩, sound.heard,
    sound.configured, ?_⟩
  · rw [Machine.run_singleton, moved]
  · simp only [AtPhase, phase]
    refine ⟨spawned, fun watched => Service.cancelled_step (cancels watched) moved, ?_, ?_⟩
    · intro now
      rcases flag now with before | ended
      · exact (cancelled before).imp_right kept
      · exact .inr ended
    · intro success
      rcases served (.ok ()) success with before | stops
      · exact succeeded before
      · exact (cancelled (graceful stops.1)).resolve_right (absurd stops.2)

theorem Sound.exit (sound : Sound parsers env build world state)
    (stepped : state.exit = some next) : Sound parsers env build world next := by
  have atPhase := sound.atPhase
  unfold AtPhase at atPhase
  unfold Process.exit at stepped
  split at stepped
  · next result phase returned =>
      rw [phase] at atPhase
      obtain ⟨spawned, _, _, succeeded⟩ := atPhase
      have configured := sound.spawned spawned
      cases stepped
      refine ⟨sound.startup, sound.service, sound.heard, fun _ => configured, ?_,
        fun never => absurd never spawned, .inr ⟨result, returned⟩⟩
      intro success
      rcases sound.joinable.orderly.ownResult returned with early | late
      · obtain ⟨_, _, error, failed⟩ := early
        rw [failed] at success
        cases success
      · obtain ⟨served, known, own⟩ := late
        cases served with
        | ok => exact succeeded known
        | error cause =>
            rw [own] at success
            cases success
  · cases stepped

theorem Sound.step (sound : Sound parsers env build world state) {event : ProcessEvent Pool}
    (stepped : (process Pool parsers env build world).step state event = some next) :
    Sound parsers env build world next := by
  cases event with
  | initLogging => exact sound.initLogging stepped
  | loadConfig => exact sound.loadConfig stepped
  | bind => exact sound.bind stepped
  | listen => exact sound.listen stepped
  | signal signal =>
      simp only [process, Process.signal] at stepped
      split at stepped
      all_goals
        first
        | cases stepped; done
        | cases stepped; exact sound.hear signal
  | cancelToken => exact sound.cancelToken stepped
  | startup => exact sound.startupStep stepped
  | enter => exact sound.enter stepped
  | service => exact sound.serviceStep stepped
  | exit => exact sound.exit stepped

theorem sound_of_run {events : List (ProcessEvent Pool)}
    (ran : (process Pool parsers env build world).run {} events = some state) :
    Sound parsers env build world state :=
  Machine.run_preserves (fun _ _ _ sound stepped => Sound.step sound stepped) Sound.initial ran

end Process

/-!
## Exits
-/

/-- What the exit of `main` says about the run before it. -/
structure ExitTells (parsers : Parsers SocketAddr Url) (env : Env) (state : Process Pool)
    (result : Except MainError Unit) : Prop where
  /-- Success is the answer to a signal that a handler in place has heard. -/
  on_signal : exitCode result = .success →
    ∃ signal, state.watch = .cancelled signal ∧ state.listeners signal = .listening
  /-- A configuration error comes before any connection and any import. -/
  refused : ∀ error, Config.fromEnv parsers env = .error error →
    exitCode result = .failure ∧ state.startup = {} ∧ state.service = {}
  loop_over : state.service.loop.Over
  none_in_flight : state.service.NoneInFlight

namespace Process

variable {state : Process Pool} {result : Except MainError Unit}

theorem Sound.refused (sound : Sound parsers env build world state)
    (exited : state.phase = .exited result) {error : Config.ConfigError}
    (invalid : Config.fromEnv parsers env = .error error) :
    exitCode result = .failure ∧ state.startup = {} ∧ state.service = {} := by
  have unspawned : state.watch = .notSpawned := by
    by_contra spawned
    obtain ⟨config, loaded⟩ := sound.spawned spawned
    cases invalid.symm.trans loaded
  have atPhase := sound.atPhase
  unfold AtPhase at atPhase
  rw [exited] at atPhase
  obtain ⟨success, nothing, _⟩ := atPhase
  refine ⟨?_, nothing unspawned⟩
  cases result with
  | ok =>
      obtain ⟨signal, cancelled⟩ := success rfl
      cases unspawned.symm.trans cancelled
  | error error => rfl

theorem Sound.over (sound : Sound parsers env build world state)
    (exited : state.phase = .exited result) : state.service.loop.Over := by
  have atPhase := sound.atPhase
  unfold AtPhase at atPhase
  rw [exited] at atPhase
  rcases atPhase.2.2 with never | returned
  · rw [never]
    trivial
  · obtain ⟨served, returned⟩ := returned
    refine sound.joinable.orderly.over_of_closing ?_
    unfold Service.PoolClosing
    rw [returned]
    trivial

theorem Sound.on_signal (sound : Sound parsers env build world state)
    (exited : state.phase = .exited result) (success : exitCode result = .success) :
    ∃ signal, state.watch = .cancelled signal ∧ state.listeners signal = .listening := by
  have atPhase := sound.atPhase
  unfold AtPhase at atPhase
  rw [exited] at atPhase
  cases result with
  | ok =>
      obtain ⟨signal, cancelled⟩ := atPhase.1 rfl
      exact ⟨signal, cancelled, sound.heard signal (.inr cancelled)⟩
  | error error => cases success

end Process

/-- The service of a process runs as it does alone. `main` exits with success only
on a shutdown signal, and always with the importer over. -/
theorem process_exits (parsers : Parsers SocketAddr Url) (env : Env) (build : Build)
    (world : World) {events : List (ProcessEvent Pool)} {final : Process Pool}
    (ran : (process Pool parsers env build world).run {} events = some final) :
    (∃ serviceEvents, (service world).run {} serviceEvents = some final.service) ∧
      ∀ result, final.phase = .exited result → ExitTells parsers env final result := by
  have sound := Process.sound_of_run ran
  refine ⟨sound.service, ?_⟩
  intro result exited
  have ended := sound.over exited
  exact
    { on_signal := sound.on_signal exited
      refused := fun _ invalid => sound.refused exited invalid
      loop_over := ended
      none_in_flight := sound.joinable.orderly.idle (Service.not_awaiting_of_over ended) }

namespace Process

theorem run_starts (Pool : Type) (build : Build) (world : World)
    {config : Config SocketAddr Url} (loaded : Config.fromEnv parsers env = .ok config) :
    (process Pool parsers env build world).run {} [.initLogging (.ok ()), .loadConfig,
      .bind (.ok ())] = some { phase := .starting, watch := .waiting } := by
  have configures : Process.loadConfig parsers env { phase := .configuring : Process Pool } =
      some { phase := .binding } := by
    simp [Process.loadConfig, loaded]
  calc
    _ = (Process.loadConfig parsers env { phase := .configuring : Process Pool }).bind
          fun next => (process Pool parsers env build world).run next [.bind (.ok ())] := rfl
    _ = (process Pool parsers env build world).run { phase := .binding } [.bind (.ok ())] := by
        rw [configures, Option.bind_some]
    _ = some { phase := .starting, watch := .waiting } := rfl

end Process

/-- Both addresses as they are by default, and a database. -/
def sampleEnv : Env := Config.sampleEnv Config.defaultBindAddr.toByteArray

theorem loads_sampleEnv : Config.fromEnv Config.sampleParsers sampleEnv =
    .ok { databaseUrl := "postgres://localhost/bipa", bindAddr := Config.defaultBindAddr,
          mempoolUrl := Config.defaultMempoolUrl, importInterval := Nanos.seconds 60,
          httpClientTimeout := Nanos.seconds 10 } := by
  decide

/-- Ctrl+C while the importer is idle. -/
theorem process_exits_sample :
    let parsers := Config.sampleParsers
    let env := sampleEnv
    let machine := process Unit parsers env { overflowChecks := true, warnEnabled := true }
      emptyWorld
    let events : List (ProcessEvent Unit) :=
      [.listen .interrupt true, .startup .pollToken, .startup (.pollConnect (some (.ok ()))),
        .startup .resume, .startup .pollToken, .startup (.pollMigrate (some (.ok ()))),
        .startup .resume, .enter, .service .spawnImporter, .signal .interrupt, .cancelToken,
        .service .pollToken, .service (.serverStops (.ok ())), .service .cancelToken,
        .service .joinImporter, .service .closePool, .exit]
    ∃ final, machine.run {} ([.initLogging (.ok ()), .loadConfig, .bind (.ok ())] ++ events) =
        some final ∧
      final.phase = .exited (.ok ()) ∧ ExitTells parsers env final (.ok ()) := by
  intro parsers env machine events
  have exits : ∃ final, machine.run { phase := .starting, watch := .waiting } events =
      some final ∧ final.phase = .exited (.ok ()) := ⟨_, rfl, rfl⟩
  obtain ⟨final, ranOn, exited⟩ := exits
  have ran := Machine.run_trans (Process.run_starts Unit _ _ loads_sampleEnv) ranOn
  exact ⟨final, ran, exited, (process_exits parsers env _ _ ran).2 _ exited⟩

end BipaNodes.App
