import BipaNodes.App.Shutdown
import BipaNodes.App.Timed
import BipaNodes.Importer.ScheduleProperties
import BipaNodes.Lib.Simulation

/-!
# The schedule of the running service

Whatever the database, the readers and a shutdown do in between, the imports of
the service follow the schedule of the import loop.
-/

set_option autoImplicit false

namespace BipaNodes.App

open Importer (Import ImportError ImportInterval ImportOutcome Iteration LoopPhase TaskEnd
  TaskPhase tickTolerance)

/-!
## Moves of the loop
-/

namespace Service

variable {world : World} {state next : Service}

/-- The events that do not concern the loop. -/
def Elsewhere : ServiceEvent → Prop
  | .spawnImporter | .pollToken | .pollTick _ | .spawnImport | .joinImport | .log | .crash => False
  | _ => True

/-- Where a step of the service leaves the loop of the importer. -/
inductive LoopMove (state next : Service) : ServiceEvent → Prop where
  | spawns (serve : state.serve = .building) (after : next.loop = .checkToken)
      (started : next.started = state.started) : LoopMove state next .spawnImporter
  | polls (before : state.loop = .checkToken)
      (after : next.loop = .checkTick ∨ next.loop = .stopped)
      (started : next.started = state.started) : LoopMove state next .pollToken
  | ticks (before : state.loop = .checkTick) (after : next.loop = .ticked)
      (started : next.started = state.started) : LoopMove state next (.pollTick true)
  | waits (before : state.loop = .checkTick) (after : next.loop = .checkToken)
      (started : next.started = state.started) : LoopMove state next (.pollTick false)
  | starts (before : state.loop = .ticked) (after : next.loop = .awaiting state.started)
      (started : next.started = state.started + 1) : LoopMove state next .spawnImport
  | joins {iteration : Nat} {taskEnd : TaskEnd}
      (before : state.loop = .awaiting iteration) (after : next.loop = .logging taskEnd.result)
      (started : next.started = state.started) (ended : state.tasks iteration = .ended taskEnd) :
      LoopMove state next .joinImport
  | logs {result : Except ImportError ImportOutcome} (before : state.loop = .logging result)
      (after : next.loop = .checkToken) (started : next.started = state.started) :
      LoopMove state next .log
  | crashes (after : next.loop = .crashed) (started : next.started = state.started) :
      LoopMove state next .crash
  | stays {event : ServiceEvent} (elsewhere : Elsewhere event)
      (after : next.loop = state.loop) (started : next.started = state.started) :
      LoopMove state next event

theorem loop_move {event : ServiceEvent}
    (stepped : (service world).step state event = some next) : LoopMove state next event := by
  cases event with
  | cancel =>
      cases stepped
      exact .stays trivial rfl rfl
  | buildFails | serverStops | cancelToken | closePool =>
      simp only [service, Service.buildFails, Service.serverStops, Service.cancelToken,
        Service.closePool] at stepped
      split at stepped
      · cases stepped
        exact .stays trivial rfl rfl
      · cases stepped
  | spawnImporter =>
      simp only [service, Service.spawnImporter] at stepped
      split at stepped
      · next serve =>
          cases stepped
          exact .spawns serve rfl rfl
      · cases stepped
  | joinImporter =>
      simp only [service, Service.joinImporter] at stepped
      split at stepped
      · split at stepped
        · cases stepped
          exact .stays trivial rfl rfl
        · cases stepped
          exact .stays trivial rfl rfl
        · cases stepped
      · cases stepped
  | pollToken =>
      simp only [service, Service.pollToken] at stepped
      split at stepped
      · next before =>
          split at stepped
          · cases stepped
            exact .polls before (.inr rfl) rfl
          · cases stepped
            exact .polls before (.inl rfl) rfl
      · cases stepped
  | pollTick ready =>
      simp only [service, Service.pollTick] at stepped
      split at stepped
      · next before =>
          cases ready with
          | true =>
              cases stepped
              exact .ticks before rfl rfl
          | false =>
              cases stepped
              exact .waits before rfl rfl
      · cases stepped
  | spawnImport =>
      simp only [service, Service.spawnImport] at stepped
      split at stepped
      · next before =>
          cases stepped
          exact .starts before rfl rfl
      · cases stepped
  | joinImport =>
      simp only [service, Service.joinImport] at stepped
      split at stepped
      · next before =>
          split at stepped
          · next ended =>
              cases stepped
              exact .joins before rfl rfl ended
          · cases stepped
      · cases stepped
  | log =>
      simp only [service, Service.log] at stepped
      split at stepped
      · next before =>
          cases stepped
          exact .logs before rfl rfl
      · cases stepped
  | crash =>
      simp only [service, Service.crash] at stepped
      split at stepped
      all_goals
        first
        | cases stepped; exact .crashes rfl rfl
        | cases stepped
  | _ =>
      cases step_effect stepped with
      | control isControl => exact isControl.elim
      | _ => exact .stays trivial rfl rfl

/-- A task that has ended stays as it ended. -/
theorem Orderly.ended_step (orderly : state.Orderly) {event : ServiceEvent}
    (stepped : (service world).step state event = some next) {iteration : Nat} {taskEnd : TaskEnd}
    (ended : state.tasks iteration = .ended taskEnd) : next.tasks iteration = .ended taskEnd := by
  have update {other : Nat} {phase : TaskPhase} (distinct : iteration ≠ other) :
      Function.update state.tasks other phase iteration = .ended taskEnd := by
    rw [Function.update_of_ne distinct, ended]
  cases step_effect stepped with
  | control _ _ tasks => rw [tasks, ended]
  | spawnImport spawned =>
      unfold Service.spawnImport at spawned
      split at spawned
      · cases spawned
        refine update fun same => ?_
        rw [same, orderly.unspawned _ (Nat.le_refl _)] at ended
        cases ended
      · cases spawned
  | replaces fetching =>
      refine update fun same => ?_
      rw [same, fetching] at ended
      cases ended
  | ends _ _ flying =>
      refine update fun same => ?_
      rw [← same, ended] at flying
      cases flying
  | _ => exact ended

/-- What the loop awaits is the import started last, and what it logs is how that
one has ended. -/
def Joined (state : Service) : Prop :=
  match state.loop with
  | .awaiting iteration => iteration + 1 = state.started
  | .logging result => ∃ iteration taskEnd, iteration + 1 = state.started ∧
      state.tasks iteration = .ended taskEnd ∧ result = taskEnd.result
  | _ => True

theorem Joined.step (joined : state.Joined) (orderly : state.Orderly) {event : ServiceEvent}
    (stepped : (service world).step state event = some next) : next.Joined := by
  cases loop_move stepped with
  | spawns _ after | ticks _ after | waits _ after | logs _ after | crashes after =>
      simp only [Joined, after]
  | polls _ after =>
      rcases after with goesOn | stops
      · simp only [Joined, goesOn]
      · simp only [Joined, stops]
  | starts _ after started => simp only [Joined, after, started]
  | joins before after started ended =>
      simp only [Joined, before] at joined
      simp only [Joined, after, started]
      exact ⟨_, _, joined, orderly.ended_step stepped ended, rfl⟩
  | stays _ after started =>
      unfold Joined at joined ⊢
      rw [after, started]
      split at joined
      · exact joined
      · obtain ⟨iteration, taskEnd, last, ended, same⟩ := joined
        exact ⟨iteration, taskEnd, last, orderly.ended_step stepped ended, same⟩
      · trivial

end Service

/-!
## Position in the schedule
-/

namespace Timed

variable {interval : ImportInterval} {world : World} {state next : Timed}

def Scheduled (interval : ImportInterval) (state : Timed) : Prop :=
  ∃ created iterations, state.imports = Importer.run interval created iterations

/-- At the `select!`, where an overdue tick completes at once and any other wakes
the loop at its deadline or later. -/
def Free (interval : ImportInterval) (state : Timed) : Prop :=
  ∃ created iterations ticker,
    state.imports = Importer.run interval created iterations ∧
    state.ticker = some ticker ∧
    Importer.clockAfter (Ticker.starting created interval.length) created iterations =
      (ticker, state.freeSince) ∧
    (if state.polled then state.freeSince < ticker.deadline else state.now = state.freeSince)

/-- Between a tick and the log line of its import. -/
def Busy (interval : ImportInterval) (state : Timed) : Prop :=
  ∃ created iterations ticker free late,
    state.imports = Importer.run interval created iterations ∧
    Importer.clockAfter (Ticker.starting created interval.length) created iterations =
      (ticker, free) ∧
    state.ticks.getLast? = some (ticker.deadline, ticker.completes free late) ∧
    state.ticker = some (ticker.afterTick tickTolerance (ticker.completes free late)) ∧
    ticker.completes free late ≤ state.now

def OnSchedule (interval : ImportInterval) (state : Timed) : Prop :=
  match state.service.loop with
  | .notSpawned => state.ticker = none ∧ state.imports = [] ∧ state.polled = false
  | .checkToken =>
      state.ticker = none ∧ state.imports = [] ∧ state.polled = false ∨ state.Free interval
  | .checkTick => state.Free interval
  | .ticked | .awaiting _ | .logging _ => state.Busy interval
  | .stopped | .crashed => state.Scheduled interval

theorem Free.scheduled (free : state.Free interval) : state.Scheduled interval := by
  obtain ⟨created, iterations, _, imports, _⟩ := free
  exact ⟨created, iterations, imports⟩

theorem Busy.scheduled (busy : state.Busy interval) : state.Scheduled interval := by
  obtain ⟨created, iterations, _, _, _, imports, _⟩ := busy
  exact ⟨created, iterations, imports⟩

theorem scheduled_of_nil (none : state.imports = []) : state.Scheduled interval :=
  ⟨0, [], none⟩

theorem OnSchedule.scheduled (position : state.OnSchedule interval) :
    state.Scheduled interval := by
  unfold OnSchedule at position
  split at position
  · exact scheduled_of_nil position.2.1
  · rcases position with unpolled | free
    · exact scheduled_of_nil unpolled.2.1
    · exact free.scheduled
  · exact position.scheduled
  · exact position.scheduled
  · exact position.scheduled
  · exact position.scheduled
  · exact position
  · exact position

theorem OnSchedule.initial : OnSchedule interval {} := ⟨rfl, rfl, rfl⟩

theorem OnSchedule.elapse (position : state.OnSchedule interval) {duration : Nanos}
    (elapsed : state.elapse duration = some next) : next.OnSchedule interval := by
  unfold Timed.elapse at elapsed
  split at elapsed
  · next suspended =>
      cases elapsed
      unfold OnSchedule at position ⊢
      unfold Timed.suspended at suspended
      cases loop : state.service.loop with
      | checkToken =>
          simp only [loop] at position suspended ⊢
          rcases position with unpolled | free
          · exact .inl unpolled
          · obtain ⟨created, iterations, ticker, imports, known, clock, late⟩ := free
            simp only [known, Option.isNone_some, Bool.false_or] at suspended
            rw [suspended] at late
            refine .inr ⟨created, iterations, ticker, imports, known, clock, ?_⟩
            simpa [suspended] using late
      | awaiting iteration =>
          simp only [loop] at position ⊢
          obtain ⟨created, iterations, ticker, free, late, imports, clock, tick, known, passed⟩ :=
            position
          exact ⟨created, iterations, ticker, free, late, imports, clock, tick, known,
            Nat.le_trans passed (Nat.le_add_right _ _)⟩
      | checkTick | ticked | logging => simp [loop] at suspended
      | notSpawned | stopped | crashed =>
          simp only [loop] at position ⊢
          exact position
  · cases elapsed

theorem OnSchedule.pollToken (position : state.OnSchedule interval) {service : Service}
    (before : state.service.loop = .checkToken)
    (after : service.loop = .checkTick ∨ service.loop = .stopped) :
    (state.pollToken interval service).OnSchedule interval := by
  simp only [OnSchedule, before] at position
  have free : (state.pollToken interval service).Free interval ∧
      (state.pollToken interval service).service = service := by
    unfold Timed.pollToken
    rcases position with unpolled | free
    · obtain ⟨none, imports, polled⟩ := unpolled
      rw [none]
      refine ⟨⟨state.now, [], Ticker.starting state.now interval.length, imports, rfl, rfl, ?_⟩,
        rfl⟩
      simp [polled]
    · obtain ⟨created, iterations, ticker, imports, known, clock, late⟩ := free
      rw [known]
      exact ⟨⟨created, iterations, ticker, imports, rfl, clock, late⟩, rfl⟩
  unfold OnSchedule
  rw [free.2]
  rcases after with goesOn | stops
  · rw [goesOn]
    exact free.1
  · rw [stops]
    exact free.1.scheduled

theorem OnSchedule.pollTick (position : state.OnSchedule interval) {service : Service}
    {ready : Bool} (before : state.service.loop = .checkTick)
    (after : service.loop = if ready then .ticked else .checkToken)
    (polled : state.pollTick ready service = some next) : next.OnSchedule interval := by
  simp only [OnSchedule, before] at position
  obtain ⟨created, iterations, ticker, imports, known, clock, late⟩ := position
  simp only [Timed.pollTick, known] at polled
  by_cases due : ticker.deadline ≤ state.now
  · rw [if_pos due] at polled
    cases ready with
    | false => cases polled
    | true =>
        cases polled
        have completes : ticker.completes state.freeSince (state.now - ticker.deadline) =
            state.now := by
          unfold Ticker.completes
          split at late
          · rw [if_neg (Nat.not_le.mpr late), Nat.add_sub_cancel' due]
          · rw [← late, if_pos due]
        simp only [OnSchedule, after, if_true]
        refine ⟨created, iterations, ticker, state.freeSince, state.now - ticker.deadline, imports,
          clock, ?_, ?_, ?_⟩
        · rw [List.getLast?_concat, completes]
        · rw [completes]
        · rw [completes]
  · rw [if_neg due] at polled
    cases ready with
    | true => cases polled
    | false =>
        cases polled
        simp only [OnSchedule, after]
        refine .inr ⟨created, iterations, ticker, imports, rfl, clock, ?_⟩
        simp only [if_true]
        split at late
        · exact late
        · rw [← late]
          exact Nat.not_le.mp due

/-- The line that is logged is that of the next import of the schedule. -/
theorem OnSchedule.log (position : state.OnSchedule interval) {service : Service}
    {result : Except ImportError ImportOutcome} (before : state.service.loop = .logging result)
    (after : service.loop = .checkToken) : (state.log service).OnSchedule interval := by
  simp only [OnSchedule, before] at position
  obtain ⟨created, iterations, ticker, free, late, imports, clock, tick, known, passed⟩ := position
  let last : Iteration :=
    { late, duration := state.now - ticker.completes free late, taskEnd := .returned result }
  have finish : (Importer.iterate ticker free last).finish = state.now :=
    Nat.add_sub_cancel' passed
  have finished : state.finished = [Importer.iterate ticker free last] := by
    simp only [Timed.finished, before, tick, ← finish]
    rfl
  have again : (state.log service).Free interval := by
    refine ⟨created, iterations ++ [last],
      ticker.afterTick tickTolerance (ticker.completes free late), ?_, known, ?_, ?_⟩
    · simp only [Timed.log, finished, imports, Importer.run, Importer.loop_concat, clock]
    · simp only [Importer.clockAfter_concat, clock, Importer.clockAfter, finish, Timed.log]
      rfl
    · simp [Timed.log]
  have loop : (state.log service).service.loop = .checkToken := after
  simp only [OnSchedule, loop]
  exact .inr again

theorem follow_elsewhere {event : ServiceEvent} {service : Service}
    (elsewhere : Service.Elsewhere event) :
    state.follow interval event service = some { state with service } := by
  cases event <;> first | rfl | exact elsewhere.elim

theorem OnSchedule.of_loop (position : state.OnSchedule interval) {service : Service}
    (same : service.loop = state.service.loop) : OnSchedule interval { state with service } := by
  unfold OnSchedule at position ⊢
  simp only [same]
  exact position

theorem OnSchedule.service (position : state.OnSchedule interval)
    (orderly : state.service.Orderly) {event : ServiceEvent} {service : Service}
    (moved : (App.service world).step state.service event = some service)
    (followed : state.follow interval event service = some next) : next.OnSchedule interval := by
  cases Service.loop_move moved with
  | spawns serve after =>
      cases followed
      have atServe := orderly.atServe
      simp only [Service.AtServe, serve] at atServe
      simp only [OnSchedule, atServe.1] at position
      simp only [OnSchedule, after]
      exact .inl position
  | polls before after =>
      cases followed
      exact position.pollToken before after
  | ticks before after => exact position.pollTick before after followed
  | waits before after => exact position.pollTick before after followed
  | starts before after =>
      cases followed
      simp only [OnSchedule, before] at position
      simp only [OnSchedule, after]
      exact position
  | joins before after =>
      cases followed
      simp only [OnSchedule, before] at position
      simp only [OnSchedule, after]
      exact position
  | logs before after =>
      cases followed
      exact position.log before after
  | crashes after =>
      cases followed
      simp only [OnSchedule, after]
      exact position.scheduled
  | stays elsewhere same =>
      rw [follow_elsewhere elsewhere] at followed
      cases followed
      exact position.of_loop same

/-!
## Every import is on the schedule
-/

/-- All imports but the one under way have been logged. A loop that crashes as it
logs leaves that one line out. -/
def Logged (state : Timed) : Prop :=
  match state.service.loop with
  | .awaiting _ | .logging _ => state.service.started = state.imports.length + 1
  | .crashed => state.imports.length ≤ state.service.started ∧
      state.service.started ≤ state.imports.length + 1
  | _ => state.service.started = state.imports.length

/-- Each line says how the task of its import has ended. -/
def Truthful (state : Timed) : Prop :=
  ∀ iteration current, state.imports[iteration]? = some current →
    ∃ taskEnd, state.service.tasks iteration = .ended taskEnd ∧
      current.logged = Importer.logResult taskEnd.result

structure InStep (interval : ImportInterval) (state : Timed) : Prop where
  orderly : state.service.Orderly
  joined : state.service.Joined
  position : state.OnSchedule interval
  logged : state.Logged
  truthful : state.Truthful

theorem InStep.initial : InStep interval {} where
  orderly := Service.Orderly.initial
  joined := trivial
  position := OnSchedule.initial
  logged := rfl
  truthful := by
    intro iteration current found
    cases found

theorem Logged.crashed (logged : state.Logged) :
    state.imports.length ≤ state.service.started ∧
      state.service.started ≤ state.imports.length + 1 := by
  unfold Logged at logged
  split at logged <;> omega

theorem finished_of_logging (position : state.OnSchedule interval)
    {result : Except ImportError ImportOutcome} (before : state.service.loop = .logging result) :
    ∃ current, state.finished = [current] ∧ current.logged = Importer.logResult result := by
  simp only [OnSchedule, before] at position
  obtain ⟨_, _, _, _, _, _, _, tick, _⟩ := position
  simp only [Timed.finished, before, tick]
  exact ⟨_, rfl, rfl⟩

theorem pollTick_frame {ready : Bool} {service : Service}
    (polled : state.pollTick ready service = some next) :
    next.service = service ∧ next.imports = state.imports := by
  unfold Timed.pollTick at polled
  split at polled
  · cases polled
  · split at polled
    · split at polled
      · cases polled
        exact ⟨rfl, rfl⟩
      · cases polled
    · split at polled
      · cases polled
      · cases polled
        exact ⟨rfl, rfl⟩

theorem pollToken_frame (service : Service) :
    (state.pollToken interval service).service = service ∧
      (state.pollToken interval service).imports = state.imports := by
  unfold Timed.pollToken
  split
  · exact ⟨rfl, rfl⟩
  · exact ⟨rfl, rfl⟩

theorem service_follow {event : ServiceEvent} {service : Service}
    (followed : state.follow interval event service = some next) : next.service = service := by
  unfold Timed.follow at followed
  split at followed
  · cases followed
    rfl
  · cases followed
    exact (pollToken_frame service).1
  · exact (pollTick_frame followed).1
  · cases followed
    rfl
  · cases followed
    rfl

/-- Apart from the log line of an import, a step leaves the imports alone. -/
theorem imports_follow {event : ServiceEvent} {service : Service} (notLog : event ≠ .log)
    (followed : state.follow interval event service = some next) :
    next.imports = state.imports ∧ next.service = service := by
  refine ⟨?_, service_follow followed⟩
  unfold Timed.follow at followed
  split at followed
  · cases followed
    rfl
  · cases followed
    exact (pollToken_frame service).2
  · exact (pollTick_frame followed).2
  · exact absurd rfl notLog
  · cases followed
    rfl

theorem Logged.service (logged : state.Logged) (position : state.OnSchedule interval)
    (orderly : state.service.Orderly) {event : ServiceEvent} {service : Service}
    (moved : (App.service world).step state.service event = some service)
    (followed : state.follow interval event service = some next) : next.Logged := by
  by_cases isLog : event = .log
  · subst isLog
    cases Service.loop_move moved with
    | logs before after started =>
        cases followed
        obtain ⟨current, finished, _⟩ := finished_of_logging position before
        have loop : (state.log service).service.loop = .checkToken := after
        simp only [Logged, before] at logged
        simp only [Logged, loop]
        simp only [Timed.log, started, logged, finished, List.length_append, List.length_singleton]
    | stays elsewhere => exact elsewhere.elim
  · obtain ⟨imports, own⟩ := imports_follow isLog followed
    cases Service.loop_move moved with
    | spawns serve after started =>
        have atServe := orderly.atServe
        simp only [Service.AtServe, serve] at atServe
        simp only [Logged, atServe.1] at logged
        simp only [Logged, own, imports, after, started, logged]
    | polls before after started =>
        simp only [Logged, before] at logged
        rcases after with goesOn | stops
        · simp only [Logged, own, imports, goesOn, started, logged]
        · simp only [Logged, own, imports, stops, started, logged]
    | ticks before after started | waits before after started | starts before after started
    | joins before after started =>
        simp only [Logged, before] at logged
        simp only [Logged, own, imports, after, started, logged]
    | logs => exact absurd rfl isLog
    | crashes after started =>
        simp only [Logged, own, imports, after, started]
        exact logged.crashed
    | stays elsewhere same started =>
        simp only [Logged, own, imports, same, started]
        exact logged

/-- The line that is added is that of the import started last. -/
theorem Truthful.log (truthful : state.Truthful) (inStep : InStep interval state)
    {result : Except ImportError ImportOutcome} (before : state.service.loop = .logging result)
    {service : Service} (kept : ∀ iteration taskEnd,
      state.service.tasks iteration = .ended taskEnd → service.tasks iteration = .ended taskEnd) :
    (state.log service).Truthful := by
  obtain ⟨added, finished, line⟩ := finished_of_logging inStep.position before
  have logged := inStep.logged
  have joined := inStep.joined
  simp only [Logged, before] at logged
  simp only [Service.Joined, before] at joined
  obtain ⟨last, lastEnd, number, ended, same⟩ := joined
  intro iteration current found
  simp only [Timed.log, finished] at found ⊢
  rcases Nat.lt_trichotomy iteration state.imports.length with earlier | atEnd | beyond
  · rw [List.getElem?_append_left earlier] at found
    obtain ⟨taskEnd, earlierEnded, earlierLine⟩ := truthful iteration current found
    exact ⟨taskEnd, kept iteration taskEnd earlierEnded, earlierLine⟩
  · obtain rfl : iteration = last := by omega
    rw [atEnd, List.getElem?_concat_length, Option.some.injEq] at found
    subst found
    exact ⟨lastEnd, kept _ lastEnd ended, same ▸ line⟩
  · have outside : (state.imports ++ [added]).length ≤ iteration := by
      rw [List.length_append, List.length_singleton]
      exact beyond
    rw [List.getElem?_eq_none outside] at found
    cases found

theorem Truthful.service (inStep : InStep interval state) {event : ServiceEvent}
    {service : Service} (moved : (App.service world).step state.service event = some service)
    (followed : state.follow interval event service = some next) : next.Truthful := by
  have kept (iteration : Nat) (taskEnd : TaskEnd)
      (ended : state.service.tasks iteration = .ended taskEnd) :
      service.tasks iteration = .ended taskEnd :=
    inStep.orderly.ended_step moved ended
  by_cases isLog : event = .log
  · subst isLog
    cases Service.loop_move moved with
    | logs before =>
        cases followed
        exact inStep.truthful.log inStep before kept
    | stays elsewhere => exact elsewhere.elim
  · obtain ⟨imports, own⟩ := imports_follow isLog followed
    intro iteration current found
    rw [imports] at found
    obtain ⟨taskEnd, ended, line⟩ := inStep.truthful iteration current found
    rw [own]
    exact ⟨taskEnd, kept iteration taskEnd ended, line⟩

theorem InStep.step (inStep : InStep interval state) {event : TimedEvent}
    (stepped : (timed interval world).step state event = some next) : InStep interval next := by
  cases event with
  | elapse duration =>
      have position := inStep.position.elapse stepped
      simp only [timed, Timed.elapse] at stepped
      split at stepped
      · cases stepped
        exact ⟨inStep.orderly, inStep.joined, position, inStep.logged, inStep.truthful⟩
      · cases stepped
  | service event =>
      obtain ⟨service, moved, followed⟩ := Option.bind_eq_some_iff.mp stepped
      refine ⟨?_, ?_, inStep.position.service inStep.orderly moved followed,
        inStep.logged.service inStep.position inStep.orderly moved followed,
        Truthful.service inStep moved followed⟩
      · rw [service_follow followed]
        exact inStep.orderly.step moved
      · rw [service_follow followed]
        exact inStep.joined.step inStep.orderly moved

theorem inStep_of_run {events : List TimedEvent}
    (ran : (timed interval world).run {} events = some state) : InStep interval state :=
  Machine.run_preserves (fun _ _ _ inStep stepped => InStep.step inStep stepped)
    InStep.initial ran

end Timed

/-- A timed run without its clock is a run of the service. -/
def untimed (interval : ImportInterval) (world : World) :
    Simulation (timed interval world) (service world) where
  invariant _ := True
  abstraction := Timed.service
  actions _ event _ :=
    match event with
    | .elapse _ => []
    | .service event => [event]
  preserves _ _ := trivial
  simulates {state event next} _ stepped := by
    cases event with
    | elapse duration =>
        simp only [timed, Timed.elapse] at stepped
        split at stepped
        · cases stepped
          rfl
        · cases stepped
    | service event =>
        obtain ⟨service, moved, followed⟩ := Option.bind_eq_some_iff.mp stepped
        rw [Machine.run_singleton, moved, Timed.service_follow followed]

/-- In every interleaving the imports that the service has logged are those of a
schedule of the import loop, each with the outcome of its task: as many as were
started and are over, never two at a time, and started an interval apart. -/
theorem imports_follow_schedule (interval : ImportInterval) (world : World)
    {events : List TimedEvent} {final : Timed}
    (ran : (timed interval world).run {} events = some final) :
    (service world).run {} ((untimed interval world).trace {} events) = some final.service ∧
      (∃ created iterations, final.imports = Importer.run interval created iterations) ∧
      Importer.SingleFlight final.imports ∧ Importer.RateBounded interval final.imports ∧
      final.Logged ∧ final.Truthful := by
  have inStep := Timed.inStep_of_run ran
  have projected := @Simulation.run _ _ _ _ _ _ (untimed interval world) _ _ _ trivial ran
  obtain ⟨created, iterations, imports⟩ := inStep.position.scheduled
  refine ⟨projected, ⟨created, iterations, imports⟩, ?_, ?_, inStep.logged, inStep.truthful⟩
  · rw [imports]
    exact Importer.singleFlight_loop
  · rw [imports]
    exact Importer.rateBounded_run

/-- The second import overruns the interval, and the third starts at once. -/
theorem imports_follow_schedule_sample :
    let interval : ImportInterval := { length := Nanos.seconds 60, positive := by decide }
    let world : World := { answers := fun _ => .ok [], clock := fun _ => 0 }
    let round (iteration : Nat) (duration : Nanos) : List TimedEvent :=
      [.service .spawnImport, .elapse duration, .service (.fetchReturns iteration),
        .service .joinImport, .service .log, .service .pollToken]
    let events : List TimedEvent :=
      [.service .spawnImporter, .elapse 7, .service .pollToken, .service (.pollTick true)] ++
        round 0 (Nanos.seconds 2) ++
        [.service (.pollTick false), .elapse (Nanos.seconds 58), .service .pollToken,
          .service (.pollTick true)] ++
        round 1 (Nanos.seconds 90) ++ [.service (.pollTick true)] ++ round 2 5
    ∃ final, (timed interval world).run {} events = some final ∧
      final.imports.map Import.start =
        [7, 7 + Nanos.seconds 60, 7 + Nanos.seconds 150] ∧
      (∃ created iterations, final.imports = Importer.run interval created iterations) ∧
      Importer.RateBounded interval final.imports := by
  intro interval world round events
  have runs : ((timed interval world).run {} events).map (fun final =>
      final.imports.map Import.start) =
        some [7, 7 + Nanos.seconds 60, 7 + Nanos.seconds 150] := by
    decide +kernel
  obtain ⟨final, ran, starts⟩ := Option.map_eq_some_iff.mp runs
  obtain ⟨_, scheduled, _, bounded, _⟩ := imports_follow_schedule interval world ran
  exact ⟨final, ran, starts, scheduled, bounded⟩

end BipaNodes.App
