import BipaNodes.App.Service

/-! Shutdown in any interleaving: the pool is closed over no import, and a
cancellation lets at most one more import start. -/

set_option autoImplicit false

namespace BipaNodes.App

open Importer (LoopPhase TaskEnd TaskPhase)
open Source (SourceError)

namespace Service

variable {world : World} {state next : Service}

/-!
## What a step can do
-/

/-- `pool.close` has been reached, or `serve` is over. -/
def PoolClosing (state : Service) : Prop :=
  match state.serve with
  | .closing _ | .returned _ => True
  | _ => False

/-- The events of `serve` and of the loop, apart from the start of an import. -/
def Control : ServiceEvent → Prop
  | .cancel | .buildFails _ | .spawnImporter | .serverStops _ | .cancelToken | .joinImporter
  | .closePool | .pollToken | .pollTick _ | .joinImport | .log | .crash => True
  | _ => False

/-- Where a step can lead, with what allowed it. -/
inductive Effect (world : World) (state : Service) : ServiceEvent → Service → Prop where
  | control {event : ServiceEvent} {next : Service} (isControl : Control event)
      (started : next.started = state.started) (tasks : next.tasks = state.tasks)
      (table : next.table = state.table) (readers : next.readers = state.readers)
      (closing : state.PoolClosing → next.PoolClosing) : Effect world state event next
  | spawnImport {next : Service} (spawned : state.spawnImport = some next) :
      Effect world state .spawnImport next
  | replaces {iteration : Nat} (fetching : state.tasks iteration = .fetching)
      (nonempty : (world.call iteration).nodes ≠ []) :
      Effect world state (.fetchReturns iteration) (state.setTask iteration .replacing)
  | ends {event : ServiceEvent} {iteration : Nat} (work : ¬ Control event) (taskEnd : TaskEnd)
      (flying : (state.tasks iteration).inFlight = true) :
      Effect world state event (state.setTask iteration (.ended taskEnd))
  | executes {iteration : Nat} {statement : Statement}
      {table : Replacement.State Nat Storage.TableRow}
      (replacing : state.tasks iteration = .replacing)
      (executed : (Storage.database world.call).step state.table (statement.event iteration) =
        some table) : Effect world state (.execute iteration statement) { state with table }
  | rollsBack {iteration : Nat} {table : Replacement.State Nat Storage.TableRow}
      (rolledBack : state.table.rollback iteration = some table) :
      Effect world state (.rollback iteration) { state with table }
  | selects (reader : Nat) : Effect world state (.select reader)
      (state.setReader reader (.selected state.table.liveRows state.table.commits))
  | delivers {reader : Nat} {rows delivered : List Storage.TableRow} {seen : List Nat}
      (selected : state.readers reader = .selected rows seen)
      (ordered : Storage.OrderedByRank rows delivered) :
      Effect world state (.deliver reader delivered)
        (state.setReader reader (.answered (Storage.listNodes (.ok delivered)) seen))
  | failsRead (reader : Nat) (error : Storage.SqlxError) (seen : List Nat) :
      Effect world state (.failRead reader error)
        (state.setReader reader (.answered (Storage.listNodes (.error error)) seen))

theorem step_effect {event : ServiceEvent}
    (stepped : (service world).step state event = some next) : Effect world state event next := by
  cases event with
  | cancel =>
      cases stepped
      exact .control trivial rfl rfl rfl rfl id
  | buildFails | spawnImporter | serverStops | cancelToken | closePool =>
      simp only [service, Service.buildFails, Service.spawnImporter, Service.serverStops,
        Service.cancelToken, Service.closePool] at stepped
      split at stepped
      · rename_i serve
        cases stepped
        exact .control trivial rfl rfl rfl rfl (by simp [PoolClosing, serve])
      · cases stepped
  | joinImporter =>
      simp only [service, Service.joinImporter] at stepped
      split at stepped
      · split at stepped
        · cases stepped
          exact .control trivial rfl rfl rfl rfl (by simp [PoolClosing])
        · cases stepped
          exact .control trivial rfl rfl rfl rfl (by simp [PoolClosing])
        · cases stepped
      · cases stepped
  | pollToken | pollTick =>
      simp only [service, Service.pollToken, Service.pollTick] at stepped
      split at stepped
      · split at stepped
        · cases stepped
          exact .control trivial rfl rfl rfl rfl id
        · cases stepped
          exact .control trivial rfl rfl rfl rfl id
      · cases stepped
  | joinImport =>
      simp only [service, Service.joinImport] at stepped
      split at stepped
      · split at stepped
        · cases stepped
          exact .control trivial rfl rfl rfl rfl id
        · cases stepped
      · cases stepped
  | log =>
      simp only [service, Service.log] at stepped
      split at stepped
      · cases stepped
        exact .control trivial rfl rfl rfl rfl id
      · cases stepped
  | crash =>
      simp only [service, Service.crash] at stepped
      split at stepped
      all_goals
        first
        | cases stepped; exact .control trivial rfl rfl rfl rfl id
        | cases stepped
  | spawnImport => exact .spawnImport stepped
  | fetchReturns iteration =>
      simp only [service, Service.fetchReturns] at stepped
      split at stepped
      · rename_i fetching
        have flying : (state.tasks iteration).inFlight = true := by rw [fetching]; rfl
        split at stepped
        · cases stepped
          exact .ends id _ flying
        · rename_i nodes fetched
          split at stepped
          · cases stepped
            exact .ends id _ flying
          · rename_i present
            split at stepped
            · cases stepped
              exact .ends id _ flying
            · cases stepped
              refine .replaces fetching ?_
              have listed : (world.call iteration).nodes = nodes := by
                simp [World.call, fetched, Except.toOption]
              rw [listed]
              intro empty
              exact present (List.isEmpty_iff.mpr empty)
      · cases stepped
  | execute iteration statement =>
      simp only [service, Service.execute] at stepped
      split at stepped
      · rename_i replacing
        obtain ⟨table, executed, rfl⟩ := Option.map_eq_some_iff.mp stepped
        exact .executes replacing executed
      · cases stepped
  | fails iteration error =>
      simp only [service, Service.fails] at stepped
      split at stepped
      · rename_i replacing
        cases stepped
        exact .ends id _ (by rw [replacing]; rfl)
      · cases stepped
  | succeeds iteration =>
      simp only [service, Service.succeeds] at stepped
      split at stepped
      · rename_i replacing _
        cases stepped
        exact .ends id _ (by rw [replacing]; rfl)
      · cases stepped
  | panics iteration message =>
      simp only [service, Service.panics] at stepped
      split at stepped
      · rename_i fetching
        cases stepped
        exact .ends id _ (by rw [fetching]; rfl)
      · rename_i replacing
        cases stepped
        exact .ends id _ (by rw [replacing]; rfl)
      · cases stepped
  | rollback iteration =>
      obtain ⟨table, rolledBack, rfl⟩ := Option.map_eq_some_iff.mp stepped
      exact .rollsBack rolledBack
  | select reader =>
      simp only [service, Service.select] at stepped
      split at stepped
      · cases stepped
        exact .selects reader
      · cases stepped
  | deliver reader delivered =>
      simp only [service, Service.deliver] at stepped
      split at stepped
      · rename_i rows seen selected
        split at stepped
        · rename_i ordered
          cases stepped
          exact .delivers selected ordered
        · cases stepped
      · cases stepped
  | failRead reader error =>
      simp only [service, Service.failRead] at stepped
      split at stepped
      · cases stepped
        exact .failsRead reader error _
      · cases stepped

/-!
## Invariant
-/

def LoopEnded (state : Service) : Prop := state.loop = .stopped ∨ state.loop = .crashed

def AtServe (state : Service) : Prop :=
  match state.serve with
  | .building => state.loop = .notSpawned ∧ state.started = 0 ∧ state.served = none
  | .serving => state.loop ≠ .notSpawned ∧ state.served = none
  | .stopping served | .joining served =>
      state.loop ≠ .notSpawned ∧ state.served = some served
  | .closing served => state.LoopEnded ∧ state.served = some served
  | .returned result =>
      (state.loop = .notSpawned ∧ state.started = 0 ∧ state.served = none ∧
        ∃ error, result = .error (.source error)) ∨
      ∃ served, state.LoopEnded ∧ state.served = some served ∧
        result = served.mapError .serve

/-- The imports that a cancellation lets through: one, where it came after the
check of the token. -/
def LateBound (state : Service) : Prop :=
  (state.cancelled = false → state.lateStarts = 0 ∧ state.cancelledAt = none) ∧
    (state.cancelled = true → ∃ phase, state.cancelledAt = some phase ∧
      state.lateStarts + (if state.loop.PastCheck then 1 else 0) ≤
        if phase.PastCheck then 1 else 0)

structure Orderly (state : Service) : Prop where
  unspawned : ∀ iteration, state.started ≤ iteration → state.tasks iteration = .unspawned
  spawned : ∀ iteration < state.started, state.tasks iteration ≠ .unspawned
  awaited : ∀ iteration, (state.tasks iteration).inFlight = true →
    state.loop = .awaiting iteration
  atServe : state.AtServe
  lateBound : state.LateBound

theorem Orderly.initial : Orderly {} where
  unspawned := fun _ _ => rfl
  spawned := by
    intro iteration early
    exact absurd early (Nat.not_lt_zero iteration)
  awaited := by
    intro iteration flying
    cases flying
  atServe := ⟨rfl, rfl, rfl⟩
  lateBound := by
    refine ⟨fun _ => ⟨rfl, rfl⟩, ?_⟩
    intro cancelled
    cases cancelled

theorem Orderly.idle (orderly : state.Orderly) (elsewhere : ∀ k, state.loop ≠ .awaiting k)
    (iteration : Nat) : (state.tasks iteration).inFlight = false := by
  cases flying : (state.tasks iteration).inFlight with
  | false => rfl
  | true => exact absurd (orderly.awaited iteration flying) (elsewhere iteration)

theorem LateBound.cancel (bound : state.LateBound) : state.cancel.LateBound := by
  unfold Service.cancel
  cases before : state.cancelled with
  | true =>
      refine ⟨by simp, fun _ => ?_⟩
      simp only [if_true]
      exact bound.2 before
  | false =>
      refine ⟨by simp, fun _ => ⟨state.loop, by simp, ?_⟩⟩
      rw [(bound.1 before).1, Nat.zero_add]

theorem Orderly.cancel (orderly : state.Orderly) : state.cancel.Orderly :=
  ⟨orderly.unspawned, orderly.spawned, orderly.awaited, orderly.atServe, orderly.lateBound.cancel⟩

theorem Orderly.setTask (orderly : state.Orderly) {iteration : Nat} {phase : TaskPhase}
    (flying : (state.tasks iteration).inFlight = true) (known : phase ≠ .unspawned) :
    (state.setTask iteration phase).Orderly := by
  have early : iteration < state.started := by
    by_contra late
    rw [orderly.unspawned iteration (Nat.not_lt.mp late)] at flying
    cases flying
  refine ⟨?_, ?_, ?_, orderly.atServe, orderly.lateBound⟩
  · intro other late
    have distinct : other ≠ iteration := by
      intro same
      exact absurd early (Nat.not_lt.mpr (same ▸ late))
    simp only [Service.setTask, Function.update_of_ne distinct]
    exact orderly.unspawned other late
  · intro other before
    simp only [Service.setTask]
    by_cases same : other = iteration
    · rw [same, Function.update_self]
      exact known
    · rw [Function.update_of_ne same]
      exact orderly.spawned other before
  · intro other otherFlying
    simp only [Service.setTask] at otherFlying ⊢
    by_cases same : other = iteration
    · rw [same]
      exact orderly.awaited iteration flying
    · rw [Function.update_of_ne same] at otherFlying
      exact orderly.awaited other otherFlying

theorem Orderly.setLoop (orderly : state.Orderly) {loop : LoopPhase}
    (elsewhere : ∀ iteration, state.loop = .awaiting iteration →
      (state.tasks iteration).inFlight = false)
    (alive : ¬ state.LoopEnded) (spawned : state.loop ≠ .notSpawned)
    (spawnedStill : loop ≠ .notSpawned)
    (bounded : loop.PastCheck → state.loop.PastCheck ∨ state.cancelled = false) :
    Orderly { state with loop } := by
  refine ⟨orderly.unspawned, orderly.spawned, ?_, ?_, ?_⟩
  · intro iteration flying
    have awaited := orderly.awaited iteration flying
    rw [elsewhere iteration awaited] at flying
    cases flying
  · have atServe := orderly.atServe
    unfold AtServe at atServe ⊢
    cases serve : state.serve with
    | building =>
        rw [serve] at atServe
        exact absurd atServe.1 spawned
    | serving =>
        rw [serve] at atServe
        exact ⟨spawnedStill, atServe.2⟩
    | stopping served =>
        rw [serve] at atServe
        exact ⟨spawnedStill, atServe.2⟩
    | joining served =>
        rw [serve] at atServe
        exact ⟨spawnedStill, atServe.2⟩
    | closing served =>
        rw [serve] at atServe
        exact absurd atServe.1 alive
    | returned result =>
        rw [serve] at atServe
        rcases atServe with early | late
        · exact absurd early.1 spawned
        · obtain ⟨_, ended, _⟩ := late
          exact absurd ended alive
  · obtain ⟨quiet, late⟩ := orderly.lateBound
    refine ⟨quiet, ?_⟩
    intro cancelled
    obtain ⟨phase, known, bound⟩ := late cancelled
    refine ⟨phase, known, ?_⟩
    by_cases past : loop.PastCheck
    · rcases bounded past with before | uncancelled
      · rw [if_pos before] at bound
        rw [if_pos past]
        exact bound
      · rw [uncancelled] at cancelled
        cases cancelled
    · rw [if_neg past]
      exact Nat.le_trans (Nat.le_add_right _ _) bound

/-!
## Steps of `serve`
-/

theorem Orderly.buildFails (orderly : state.Orderly) {error : SourceError}
    (stepped : state.buildFails error = some next) : next.Orderly := by
  have atServe := orderly.atServe
  unfold Service.buildFails at stepped
  unfold AtServe at atServe
  split at stepped
  · rename_i serve
    rw [serve] at atServe
    cases stepped
    obtain ⟨unspawned, noneStarted, unserved⟩ := atServe
    exact ⟨orderly.unspawned, orderly.spawned, orderly.awaited,
      .inl ⟨unspawned, noneStarted, unserved, error, rfl⟩, orderly.lateBound⟩
  · cases stepped

theorem Orderly.spawnImporter (orderly : state.Orderly)
    (stepped : state.spawnImporter = some next) : next.Orderly := by
  have atServe := orderly.atServe
  unfold Service.spawnImporter at stepped
  unfold AtServe at atServe
  split at stepped
  · rename_i serve
    rw [serve] at atServe
    cases stepped
    obtain ⟨notSpawned, _, unserved⟩ := atServe
    refine ⟨orderly.unspawned, orderly.spawned, ?_, ⟨by simp, unserved⟩, ?_⟩
    · intro iteration flying
      have awaited := orderly.awaited iteration flying
      rw [notSpawned] at awaited
      cases awaited
    · obtain ⟨quiet, late⟩ := orderly.lateBound
      refine ⟨quiet, ?_⟩
      intro cancelled
      obtain ⟨phase, known, bound⟩ := late cancelled
      exact ⟨phase, known, Nat.le_trans (Nat.le_add_right _ _) bound⟩
  · cases stepped

theorem Orderly.serverStops (orderly : state.Orderly) {served : Except String Unit}
    (stepped : state.serverStops served = some next) : next.Orderly := by
  have atServe := orderly.atServe
  unfold Service.serverStops at stepped
  unfold AtServe at atServe
  split at stepped
  · rename_i serve
    rw [serve] at atServe
    cases stepped
    exact ⟨orderly.unspawned, orderly.spawned, orderly.awaited, ⟨atServe.1, rfl⟩,
      orderly.lateBound⟩
  · cases stepped

theorem Orderly.cancelToken (orderly : state.Orderly)
    (stepped : state.cancelToken = some next) : next.Orderly := by
  have atServe := orderly.atServe
  unfold Service.cancelToken at stepped
  unfold AtServe at atServe
  split at stepped
  · rename_i served serve
    rw [serve] at atServe
    cases stepped
    exact ⟨orderly.unspawned, orderly.spawned, orderly.awaited, atServe, orderly.lateBound.cancel⟩
  · cases stepped

theorem Orderly.joinImporter (orderly : state.Orderly)
    (stepped : state.joinImporter = some next) : next.Orderly := by
  have atServe := orderly.atServe
  unfold Service.joinImporter at stepped
  unfold AtServe at atServe
  split at stepped
  · rename_i served serve
    rw [serve] at atServe
    split at stepped
    · rename_i loop
      cases stepped
      exact ⟨orderly.unspawned, orderly.spawned, orderly.awaited, ⟨.inl loop, atServe.2⟩,
        orderly.lateBound⟩
    · rename_i loop
      cases stepped
      exact ⟨orderly.unspawned, orderly.spawned, orderly.awaited, ⟨.inr loop, atServe.2⟩,
        orderly.lateBound⟩
    · cases stepped
  · cases stepped

theorem Orderly.closePool (orderly : state.Orderly)
    (stepped : state.closePool = some next) : next.Orderly := by
  have atServe := orderly.atServe
  unfold Service.closePool at stepped
  unfold AtServe at atServe
  split at stepped
  · rename_i served serve
    rw [serve] at atServe
    cases stepped
    exact ⟨orderly.unspawned, orderly.spawned, orderly.awaited,
      .inr ⟨served, atServe.1, atServe.2, rfl⟩, orderly.lateBound⟩
  · cases stepped

/-!
## Steps of the importer
-/

theorem Orderly.pollToken (orderly : state.Orderly)
    (stepped : state.pollToken = some next) : next.Orderly := by
  unfold Service.pollToken at stepped
  split at stepped
  · rename_i loop
    split at stepped
    · cases stepped
      exact orderly.setLoop (by simp [loop]) (by simp [LoopEnded, loop]) (by simp [loop]) (by simp)
        False.elim
    · rename_i uncancelled
      cases stepped
      exact orderly.setLoop (by simp [loop]) (by simp [LoopEnded, loop]) (by simp [loop]) (by simp)
        fun _ => .inr (Bool.not_eq_true _ ▸ uncancelled)
  · cases stepped

theorem Orderly.pollTick (orderly : state.Orderly) {ready : Bool}
    (stepped : state.pollTick ready = some next) : next.Orderly := by
  unfold Service.pollTick at stepped
  split at stepped
  · rename_i loop
    split at stepped
    · cases stepped
      exact orderly.setLoop (by simp [loop]) (by simp [LoopEnded, loop]) (by simp [loop]) (by simp)
        fun _ => .inl (by rw [loop]; trivial)
    · cases stepped
      exact orderly.setLoop (by simp [loop]) (by simp [LoopEnded, loop]) (by simp [loop]) (by simp)
        False.elim
  · cases stepped

theorem Orderly.joinImport (orderly : state.Orderly)
    (stepped : state.joinImport = some next) : next.Orderly := by
  unfold Service.joinImport at stepped
  split at stepped
  · rename_i iteration loop
    split at stepped
    · rename_i taskEnd ended
      cases stepped
      refine orderly.setLoop ?_ (by simp [LoopEnded, loop]) (by simp [loop]) (by simp) False.elim
      intro other awaited
      rw [loop] at awaited
      cases awaited
      rw [ended]
      rfl
    · cases stepped
  · cases stepped

theorem Orderly.log (orderly : state.Orderly) (stepped : state.log = some next) :
    next.Orderly := by
  unfold Service.log at stepped
  split at stepped
  · rename_i result loop
    cases stepped
    exact orderly.setLoop (by simp [loop]) (by simp [LoopEnded, loop]) (by simp [loop]) (by simp)
      False.elim
  · cases stepped

theorem Orderly.crash (orderly : state.Orderly) (stepped : state.crash = some next) :
    next.Orderly := by
  have crashes (elsewhere : ∀ iteration, state.loop ≠ .awaiting iteration)
      (alive : ¬ state.LoopEnded) (spawned : state.loop ≠ .notSpawned) :
      Orderly { state with loop := .crashed } :=
    orderly.setLoop (fun iteration awaited => absurd awaited (elsewhere iteration)) alive spawned
      (by simp) False.elim
  unfold Service.crash at stepped
  split at stepped
  · rename_i loop
    cases stepped
    exact crashes (by simp [loop]) (by simp [LoopEnded, loop]) (by simp [loop])
  · rename_i loop
    cases stepped
    exact crashes (by simp [loop]) (by simp [LoopEnded, loop]) (by simp [loop])
  · rename_i loop
    cases stepped
    exact crashes (by simp [loop]) (by simp [LoopEnded, loop]) (by simp [loop])
  · rename_i result loop
    cases stepped
    exact crashes (by simp [loop]) (by simp [LoopEnded, loop]) (by simp [loop])
  · cases stepped

theorem Orderly.spawnImport (orderly : state.Orderly)
    (stepped : state.spawnImport = some next) : next.Orderly := by
  unfold Service.spawnImport at stepped
  split at stepped
  · rename_i loop
    cases stepped
    have moved : Orderly { state with loop := .awaiting state.started } :=
      orderly.setLoop (by simp [loop]) (by simp [LoopEnded, loop]) (by simp [loop]) (by simp)
        False.elim
    refine ⟨?_, ?_, ?_, ?_, ?_⟩
    · intro iteration late
      have distinct : iteration ≠ state.started := Nat.ne_of_gt late
      simp only [Function.update_of_ne distinct]
      exact orderly.unspawned iteration (Nat.le_of_lt late)
    · intro iteration early
      simp only
      by_cases own : iteration = state.started
      · rw [own, Function.update_self]
        simp
      · rw [Function.update_of_ne own]
        exact orderly.spawned iteration (Nat.lt_of_le_of_ne (Nat.le_of_lt_succ early) own)
    · intro iteration flying
      simp only at flying ⊢
      by_cases own : iteration = state.started
      · rw [own]
      · rw [Function.update_of_ne own] at flying
        exact moved.awaited iteration flying
    · have atServe := moved.atServe
      unfold AtServe at atServe ⊢
      cases serve : state.serve with
      | building => simp [serve] at atServe
      | serving => simpa [serve] using atServe
      | stopping served => simpa [serve] using atServe
      | joining served => simpa [serve] using atServe
      | closing served => simp [serve, LoopEnded] at atServe
      | returned result => simp [serve, LoopEnded] at atServe
    · obtain ⟨quiet, late⟩ := orderly.lateBound
      constructor
      · intro uncancelled
        simp only at uncancelled
        simp only [uncancelled, Bool.false_eq_true, if_false]
        exact quiet uncancelled
      · intro cancelled
        simp only at cancelled
        obtain ⟨phase, known, bound⟩ := late cancelled
        refine ⟨phase, known, ?_⟩
        rw [if_pos (by rw [loop]; trivial)] at bound
        simp only [cancelled, if_true]
        exact bound
  · cases stepped

/-!
## All steps
-/

/-- Table and readers do not matter to the order of the parties. -/
theorem Orderly.of_frame (orderly : state.Orderly) (table : Replacement.State Nat Storage.TableRow)
    (readers : Nat → Reader) : Orderly { state with table, readers } :=
  ⟨orderly.unspawned, orderly.spawned, orderly.awaited, orderly.atServe, orderly.lateBound⟩

theorem Orderly.work (orderly : state.Orderly) {event : ServiceEvent}
    (effect : Effect world state event next) (isWork : ¬ Control event) : next.Orderly := by
  cases effect with
  | control isControl => exact absurd isControl isWork
  | spawnImport spawned => exact orderly.spawnImport spawned
  | replaces fetching => exact orderly.setTask (by rw [fetching]; rfl) (by simp)
  | ends _ taskEnd flying => exact orderly.setTask flying (by simp)
  | executes | rollsBack => exact orderly.of_frame _ state.readers
  | selects | delivers | failsRead => exact orderly.of_frame state.table _

theorem Orderly.step (orderly : state.Orderly) {event : ServiceEvent}
    (stepped : (service world).step state event = some next) : next.Orderly := by
  cases event with
  | cancel =>
      cases stepped
      exact orderly.cancel
  | buildFails error => exact orderly.buildFails stepped
  | spawnImporter => exact orderly.spawnImporter stepped
  | serverStops served => exact orderly.serverStops stepped
  | cancelToken => exact orderly.cancelToken stepped
  | joinImporter => exact orderly.joinImporter stepped
  | closePool => exact orderly.closePool stepped
  | pollToken => exact orderly.pollToken stepped
  | pollTick ready => exact orderly.pollTick stepped
  | joinImport => exact orderly.joinImport stepped
  | log => exact orderly.log stepped
  | crash => exact orderly.crash stepped
  | _ => exact orderly.work (step_effect stepped) id

/-!
## What shutdown guarantees
-/

def NoneInFlight (state : Service) : Prop :=
  ∀ iteration, (state.tasks iteration).inFlight = false

/-- What `serve` returns once the server has run is the server's result. -/
def OwnResult (state : Service) (result : Except AppError Unit) : Prop :=
  (state.served = none ∧ state.started = 0 ∧ ∃ error, result = .error (.source error)) ∨
    ∃ served, state.served = some served ∧ result = served.mapError .serve

structure Graceful (before after : Service) : Prop where
  closes_over_none : after.PoolClosing → after.loop.Over ∧ after.NoneInFlight
  none_can_start : before.PoolClosing → after.PoolClosing ∧ after.started = before.started
  /-- At most one import starts after the cancellation, and only where it came
  after the check of the token in the round of `select!` that chooses the tick. -/
  one_late_start : after.lateStarts ≤ 1 ∧
    (0 < after.lateStarts → ∃ phase, after.cancelledAt = some phase ∧ phase.PastCheck)
  ends_before_run : after.loop.Over →
    ∀ iteration < after.started, ∃ taskEnd, after.tasks iteration = .ended taskEnd
  single_flight : ∀ left right, (after.tasks left).inFlight = true →
    (after.tasks right).inFlight = true → left = right
  own_result : ∀ result, after.serve = .returned result → after.OwnResult result

/-- The late import only where the cancellation found its tick already chosen. -/
structure GracefulOnceChosen (before after : Service) : Prop extends Graceful before after where
  chosen_before : 0 < after.lateStarts → after.cancelledAt = some .ticked

theorem not_awaiting_of_over {loop : LoopPhase} (finished : loop.Over) (iteration : Nat) :
    loop ≠ .awaiting iteration := by
  intro awaiting
  rw [awaiting] at finished
  exact finished

theorem LoopEnded.loop_over (ended : state.LoopEnded) : state.loop.Over := by
  rcases ended with stopped | crashed
  · rw [stopped]
    trivial
  · rw [crashed]
    trivial

theorem Orderly.over_of_closing (orderly : state.Orderly) (closing : state.PoolClosing) :
    state.loop.Over := by
  have atServe := orderly.atServe
  unfold AtServe at atServe
  unfold PoolClosing at closing
  cases serve : state.serve with
  | building => simp [serve] at closing
  | serving => simp [serve] at closing
  | stopping served => simp [serve] at closing
  | joining served => simp [serve] at closing
  | closing served =>
      rw [serve] at atServe
      exact LoopEnded.loop_over atServe.1
  | returned result =>
      rw [serve] at atServe
      rcases atServe with early | late
      · rw [early.1]
        trivial
      · obtain ⟨_, ended, _⟩ := late
        exact ended.loop_over

theorem Orderly.ended_of_over (orderly : state.Orderly) (finished : state.loop.Over)
    {iteration : Nat} (early : iteration < state.started) :
    ∃ taskEnd, state.tasks iteration = .ended taskEnd := by
  have grounded := orderly.idle (not_awaiting_of_over finished) iteration
  cases task : state.tasks iteration with
  | unspawned => exact absurd task (orderly.spawned iteration early)
  | fetching => simp [task, TaskPhase.inFlight] at grounded
  | replacing => simp [task, TaskPhase.inFlight] at grounded
  | ended taskEnd => exact ⟨taskEnd, rfl⟩

theorem Orderly.ownResult (orderly : state.Orderly) {result : Except AppError Unit}
    (serve : state.serve = .returned result) : state.OwnResult result := by
  have atServe := orderly.atServe
  unfold AtServe at atServe
  rw [serve] at atServe
  rcases atServe with early | late
  · exact .inl ⟨early.2.2.1, early.2.1, early.2.2.2⟩
  · obtain ⟨served, _, known, same⟩ := late
    exact .inr ⟨served, known, same⟩

theorem LateBound.one (bound : state.LateBound) : state.lateStarts ≤ 1 ∧
    (0 < state.lateStarts → ∃ phase, state.cancelledAt = some phase ∧ phase.PastCheck) := by
  cases cancelled : state.cancelled with
  | false =>
      rw [(bound.1 cancelled).1]
      exact ⟨Nat.zero_le 1, fun late => absurd late (Nat.lt_irrefl 0)⟩
  | true =>
      obtain ⟨phase, known, total⟩ := bound.2 cancelled
      have few := Nat.le_trans (Nat.le_add_right _ _) total
      by_cases past : phase.PastCheck
      · rw [if_pos past] at few
        exact ⟨few, fun _ => ⟨phase, known, past⟩⟩
      · rw [if_neg past] at few
        exact ⟨few.trans (Nat.zero_le 1), fun late => absurd few (Nat.not_le.mpr late)⟩

theorem started_step {event : ServiceEvent}
    (stepped : (service world).step state event = some next) (noSpawn : event ≠ .spawnImport) :
    next.started = state.started ∧ (state.PoolClosing → next.PoolClosing) := by
  cases step_effect stepped with
  | control _ started _ _ _ closing => exact ⟨started, closing⟩
  | spawnImport => exact absurd rfl noSpawn
  | _ => exact ⟨rfl, id⟩

theorem Orderly.none_can_start (orderly : state.Orderly) (closing : state.PoolClosing)
    {event : ServiceEvent} (stepped : (service world).step state event = some next) :
    next.PoolClosing ∧ next.started = state.started := by
  have noSpawn : event ≠ .spawnImport := by
    intro spawns
    subst spawns
    have finished := orderly.over_of_closing closing
    simp only [service, Service.spawnImport] at stepped
    split at stepped
    · rename_i ticked
      rw [ticked] at finished
      exact finished
    · cases stepped
  obtain ⟨started, stays⟩ := started_step stepped noSpawn
  exact ⟨stays closing, started⟩

theorem Orderly.graceful (before : state.Orderly) {event : ServiceEvent}
    (stepped : (service world).step state event = some next) : Graceful state next := by
  have after := before.step stepped
  refine ⟨?_, fun closing => before.none_can_start closing stepped, after.lateBound.one, ?_, ?_, ?_⟩
  · intro closing
    have finished := after.over_of_closing closing
    exact ⟨finished, after.idle (not_awaiting_of_over finished)⟩
  · intro finished iteration early
    exact after.ended_of_over finished early
  · intro left right leftFlying rightFlying
    have awaited := after.awaited left leftFlying
    rw [after.awaited right rightFlying] at awaited
    exact (LoopPhase.awaiting.inj awaited).symm
  · intro result serve
    exact after.ownResult serve

end Service

/-- Every step of every interleaving shuts down gracefully. -/
theorem shutdown_graceful (world : World) (events : List ServiceEvent) :
    (service world).EveryStep (fun before _ after => Service.Graceful before after) {} events := by
  apply @Machine.everyStep_of_invariant _ _ _ Service.Orderly
  · intro before event after orderly stepped
    exact orderly.step stepped
  · intro before event after orderly stepped
    exact orderly.graceful stepped
  · exact Service.Orderly.initial

/-- No node can be fetched. -/
def emptyWorld : World where
  answers _ := .ok []
  clock _ := 0

/-- Another thread cancels while the loop is between the two polls of one round
of `select!`. -/
def cancelledBetweenPolls : List ServiceEvent :=
  [.spawnImporter, .pollToken, .cancel, .pollTick true]

/-- The tick is chosen after the cancellation then, and its import starts. -/
theorem tick_chosen_after_cancel :
    ¬ (service emptyWorld).EveryStep (fun before _ after =>
      Service.GracefulOnceChosen before after) {} (cancelledBetweenPolls ++ [.spawnImport]) := by
  intro every
  obtain ⟨reached, ran, next, stepped, late, cancelledAt⟩ : ∃ reached,
      (service emptyWorld).run {} cancelledBetweenPolls = some reached ∧ ∃ next,
        (service emptyWorld).step reached .spawnImport = some next ∧
          next.lateStarts = 1 ∧ next.cancelledAt = some .checkTick :=
    ⟨_, rfl, _, rfl, rfl, rfl⟩
  have chosen := (every.last ran next stepped).chosen_before (by simp [late])
  simp [cancelledAt] at chosen

end BipaNodes.App
