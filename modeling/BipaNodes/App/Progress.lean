import BipaNodes.App.Shutdown
import BipaNodes.Lib.Progress

/-!
# The end of the service

Once the token is cancelled, `serve` returns after a few steps, however they
interleave with the database and the readers.
-/

set_option autoImplicit false

namespace BipaNodes.App

open Importer (LoopPhase TaskEnd TaskPhase)

namespace Service

/-- The steps of `serve`, of the loop and of its tasks. The others are those of
the database, of the readers, and a cancellation. -/
def Own : ServiceEvent → Prop
  | .cancel | .execute _ _ | .rollback _ | .select _ | .deliver _ _ | .failRead _ _ => False
  | _ => True

instance : DecidablePred Own := fun event => by
  unfold Own
  split <;> infer_instance

def Returned (state : Service) : Prop := ∃ result, state.serve = .returned result

/-!
## How much is left
-/

def serveLeft : ServePhase → Nat
  | .building => 6
  | .serving => 4
  | .stopping _ => 3
  | .joining _ => 2
  | .closing _ => 1
  | .returned _ => 0

def taskLeft : TaskPhase → Nat
  | .fetching => 2
  | .replacing => 1
  | _ => 0

/-- A round that has passed its check of the token can still start an import. -/
def loopLeft (tasks : Nat → TaskPhase) : LoopPhase → Nat
  | .checkTick => 7
  | .ticked => 6
  | .awaiting iteration => 3 + taskLeft (tasks iteration)
  | .logging _ => 2
  | .checkToken => 1
  | .notSpawned | .stopped | .crashed => 0

def left (state : Service) : Nat := serveLeft state.serve + loopLeft state.tasks state.loop

/-- What the loop awaits has been spawned. -/
structure Joinable (state : Service) : Prop where
  orderly : state.Orderly
  spawned : ∀ iteration, state.loop = .awaiting iteration → state.tasks iteration ≠ .unspawned

structure Ending (state : Service) : Prop extends Joinable state where
  cancelled : state.cancelled = true

variable {world : World} {state next : Service}

theorem taskLeft_pos {phase : TaskPhase} (flying : phase.inFlight = true) : 0 < taskLeft phase := by
  cases phase <;> simp [TaskPhase.inFlight, taskLeft] at flying ⊢

theorem Orderly.left_setTask (orderly : state.Orderly) {iteration : Nat} {phase : TaskPhase}
    (flying : (state.tasks iteration).inFlight = true)
    (less : taskLeft phase < taskLeft (state.tasks iteration)) :
    (state.setTask iteration phase).left < state.left := by
  have awaited := orderly.awaited iteration flying
  change serveLeft state.serve + loopLeft (Function.update state.tasks iteration phase) state.loop <
    serveLeft state.serve + loopLeft state.tasks state.loop
  rw [awaited, loopLeft, loopLeft, Function.update_self]
  omega

theorem Orderly.left_ends (orderly : state.Orderly) {iteration : Nat} (taskEnd : TaskEnd)
    (flying : (state.tasks iteration).inFlight = true) :
    (state.setTask iteration (.ended taskEnd)).left < state.left :=
  orderly.left_setTask flying (taskLeft_pos flying)

theorem left_control {event : ServiceEvent} (isControl : Control event)
    (cancelled : state.cancelled = true)
    (stepped : (service world).step state event = some next) (isOwn : Own event) :
    next.left < state.left := by
  cases event with
  | buildFails | spawnImporter | serverStops | cancelToken | closePool =>
      simp only [service, Service.buildFails, Service.spawnImporter, Service.serverStops,
        Service.cancelToken, Service.closePool] at stepped
      split at stepped
      · next serve =>
          cases stepped
          simp only [left, serve, serveLeft, loopLeft, Service.cancel]
          omega
      · cases stepped
  | joinImporter =>
      simp only [service, Service.joinImporter] at stepped
      split at stepped
      · next serve =>
          split at stepped
          · cases stepped
            simp only [left, serve, serveLeft]
            omega
          · cases stepped
            simp only [left, serve, serveLeft]
            omega
          · cases stepped
      · cases stepped
  | pollToken =>
      simp only [service, Service.pollToken] at stepped
      split at stepped
      · next loop =>
          rw [if_pos cancelled] at stepped
          cases stepped
          simp [left, loop, loopLeft]
      · cases stepped
  | pollTick ready =>
      simp only [service, Service.pollTick] at stepped
      split at stepped
      · next loop =>
          split at stepped
          · cases stepped
            simp [left, loop, loopLeft]
          · cases stepped
            simp [left, loop, loopLeft]
      · cases stepped
  | joinImport =>
      simp only [service, Service.joinImport] at stepped
      split at stepped
      · next loop =>
          split at stepped
          · next taskEnd ended =>
              cases stepped
              simp [left, loop, loopLeft, ended, taskLeft]
          · cases stepped
      · cases stepped
  | log =>
      simp only [service, Service.log] at stepped
      split at stepped
      · next loop =>
          cases stepped
          simp [left, loop, loopLeft]
      · cases stepped
  | crash =>
      simp only [service, Service.crash] at stepped
      split at stepped
      all_goals
        first
        | cases stepped; next loop => simp [left, loop, loopLeft]
        | cases stepped
  | cancel => exact isOwn.elim
  | _ => exact isControl.elim

/-- No step but the start of an import makes the loop wait for another one, and
a cancellation is for good. -/
theorem loop_control {event : ServiceEvent} (isControl : Control event)
    (stepped : (service world).step state event = some next) :
    (state.cancelled = true → next.cancelled = true) ∧
      ∀ iteration, next.loop = .awaiting iteration → state.loop = .awaiting iteration := by
  cases event with
  | cancel =>
      cases stepped
      exact ⟨fun _ => rfl, fun _ => id⟩
  | buildFails | spawnImporter | serverStops | cancelToken | closePool | log =>
      simp only [service, Service.buildFails, Service.spawnImporter, Service.serverStops,
        Service.cancelToken, Service.closePool, Service.log] at stepped
      split at stepped
      · cases stepped
        simp [Service.cancel]
      · cases stepped
  | joinImporter | pollToken | pollTick | joinImport =>
      simp only [service, Service.joinImporter, Service.pollToken, Service.pollTick,
        Service.joinImport] at stepped
      split at stepped
      · split at stepped
        all_goals
          first
          | cases stepped; simp
          | cases stepped
      · cases stepped
  | crash =>
      simp only [service, Service.crash] at stepped
      split at stepped
      all_goals
        first
        | cases stepped; simp
        | cases stepped
  | _ => exact isControl.elim

theorem Joinable.setTask (joinable : state.Joinable) {iteration : Nat} {phase : TaskPhase}
    (spawned : phase ≠ .unspawned) (other : Nat)
    (awaiting : (state.setTask iteration phase).loop = .awaiting other) :
    (state.setTask iteration phase).tasks other ≠ .unspawned := by
  simp only [Service.setTask] at awaiting ⊢
  by_cases own : other = iteration
  · rw [own, Function.update_self]
    exact spawned
  · rw [Function.update_of_ne own]
    exact joinable.spawned other awaiting

theorem Joinable.step (joinable : state.Joinable) {event : ServiceEvent}
    (stepped : (service world).step state event = some next) : next.Joinable := by
  refine ⟨joinable.orderly.step stepped, ?_⟩
  cases step_effect stepped with
  | control isControl _ tasks =>
      intro iteration awaiting
      rw [tasks]
      exact joinable.spawned iteration ((loop_control isControl stepped).2 iteration awaiting)
  | spawnImport spawned =>
      unfold Service.spawnImport at spawned
      split at spawned
      · cases spawned
        intro iteration awaiting
        cases awaiting
        simp
      · cases spawned
  | replaces | ends => exact joinable.setTask (by simp)
  | _ => exact joinable.spawned

theorem cancelled_step {event : ServiceEvent} (cancelled : state.cancelled = true)
    (stepped : (service world).step state event = some next) : next.cancelled = true := by
  cases step_effect stepped with
  | control isControl => exact (loop_control isControl stepped).1 cancelled
  | spawnImport spawned =>
      unfold Service.spawnImport at spawned
      split at spawned
      · cases spawned
        exact cancelled
      · cases spawned
  | _ => exact cancelled

theorem Ending.step (ending : state.Ending) {event : ServiceEvent}
    (stepped : (service world).step state event = some next) : next.Ending :=
  ⟨ending.toJoinable.step stepped, cancelled_step ending.cancelled stepped⟩

theorem joinable_of_run {events : List ServiceEvent}
    (ran : (service world).run {} events = some state) : state.Joinable :=
  Machine.run_preserves (fun _ _ _ joinable stepped => Joinable.step joinable stepped)
    ⟨Orderly.initial, fun _ awaiting => by cases awaiting⟩ ran

theorem left_spawnImport (spawned : state.spawnImport = some next) : next.left < state.left := by
  unfold Service.spawnImport at spawned
  split at spawned
  · next loop =>
      cases spawned
      simp [left, loop, loopLeft, taskLeft]
  · cases spawned

theorem Ending.left_step (ending : state.Ending) {event : ServiceEvent}
    (stepped : (service world).step state event = some next) :
    next.left ≤ state.left ∧ (Own event → next.left < state.left) := by
  have own (less : next.left < state.left) :
      next.left ≤ state.left ∧ (Own event → next.left < state.left) :=
    ⟨Nat.le_of_lt less, fun _ => less⟩
  cases step_effect stepped with
  | control isControl =>
      by_cases isOwn : Own event
      · exact own (left_control isControl ending.cancelled stepped isOwn)
      · cases event with
        | cancel =>
            cases stepped
            exact ⟨Nat.le_refl _, fun isOwn => isOwn.elim⟩
        | _ => first | exact absurd trivial isOwn | exact isControl.elim
  | spawnImport spawned => exact own (left_spawnImport spawned)
  | replaces fetching =>
      refine own (ending.orderly.left_setTask ?_ ?_)
      · rw [fetching]
        rfl
      · rw [fetching]
        decide
  | ends _ taskEnd flying => exact own (ending.orderly.left_ends taskEnd flying)
  | _ => exact ⟨Nat.le_refl _, fun isOwn => isOwn.elim⟩

/-!
## Never stuck
-/

theorem fetchReturns_isSome (world : World) {iteration : Nat}
    (fetching : state.tasks iteration = .fetching) :
    ∃ next, state.fetchReturns world iteration = some next := by
  unfold Service.fetchReturns
  rw [fetching]
  dsimp only
  split
  · exact ⟨_, rfl⟩
  · split
    · exact ⟨_, rfl⟩
    · split
      · exact ⟨_, rfl⟩
      · exact ⟨_, rfl⟩

/-- Some own step is possible. -/
def CanMove (world : World) (state : Service) : Prop :=
  ∃ event next, Own event ∧ (service world).step state event = some next

theorem canMove (world : World) (event : ServiceEvent) (isOwn : Own event)
    (allowed : ((service world).step state event).isSome = true) : state.CanMove world := by
  obtain ⟨next, stepped⟩ := Option.isSome_iff_exists.mp allowed
  exact ⟨event, next, isOwn, stepped⟩

theorem Ending.canMove_joining (world : World) (ending : state.Ending)
    {served : Except String Unit} (serve : state.serve = .joining served) :
    state.CanMove world := by
  have atServe := ending.orderly.atServe
  unfold AtServe at atServe
  rw [serve] at atServe
  cases loop : state.loop with
  | notSpawned => exact absurd loop atServe.1
  | checkToken =>
      exact canMove world .pollToken trivial
        (by simp [service, Service.pollToken, loop, ending.cancelled])
  | checkTick =>
      exact canMove world (.pollTick false) trivial (by simp [service, Service.pollTick, loop])
  | ticked =>
      exact canMove world .spawnImport trivial (by simp [service, Service.spawnImport, loop])
  | logging result => exact canMove world .log trivial (by simp [service, Service.log, loop])
  | stopped | crashed =>
      exact canMove world .joinImporter trivial
        (by simp [service, Service.joinImporter, serve, loop])
  | awaiting iteration =>
      cases task : state.tasks iteration with
      | unspawned => exact absurd task (ending.spawned iteration loop)
      | fetching =>
          obtain ⟨next, returned⟩ := fetchReturns_isSome world task
          exact ⟨.fetchReturns iteration, next, trivial, returned⟩
      | replacing =>
          exact canMove world (.fails iteration .poolTimedOut) trivial
            (by simp [service, Service.fails, task])
      | ended taskEnd =>
          exact canMove world .joinImport trivial
            (by simp [service, Service.joinImport, loop, task])

theorem Ending.canMove (world : World) (ending : state.Ending) (running : ¬ state.Returned) :
    state.CanMove world := by
  cases serve : state.serve with
  | building =>
      exact Service.canMove world .spawnImporter trivial
        (by simp [service, Service.spawnImporter, serve])
  | serving =>
      exact Service.canMove world (.serverStops (.ok ())) trivial
        (by simp [service, Service.serverStops, serve])
  | stopping served =>
      exact Service.canMove world .cancelToken trivial
        (by simp [service, Service.cancelToken, serve])
  | joining served => exact ending.canMove_joining world serve
  | closing served =>
      exact Service.canMove world .closePool trivial (by simp [service, Service.closePool, serve])
  | returned result => exact absurd ⟨result, serve⟩ running

theorem Orderly.left_le (orderly : state.Orderly) : state.left ≤ 11 := by
  have tasks : ∀ iteration, taskLeft (state.tasks iteration) ≤ 2 := by
    intro iteration
    cases state.tasks iteration <;> simp [taskLeft]
  have loop : loopLeft state.tasks state.loop ≤ 7 := by
    cases state.loop with
    | awaiting iteration =>
        have bound := tasks iteration
        simp only [loopLeft]
        omega
    | _ => simp [loopLeft]
  have atServe := orderly.atServe
  unfold AtServe at atServe
  cases serve : state.serve with
  | building =>
      rw [serve] at atServe
      simp [left, serve, serveLeft, atServe.1, loopLeft]
  | _ =>
      simp only [left, serve, serveLeft]
      omega

end Service

/-- What is left of a cancelled service. -/
def ending (world : World) : Progress (service world) where
  invariant := Service.Ending
  own := Service.Own
  done := Service.Returned
  measure := Service.left
  preserves ending stepped := ending.step stepped
  bounded ending stepped := (ending.left_step stepped).1
  decreases ending isOwn stepped := (ending.left_step stepped).2 isOwn
  enabled ending running := ending.canMove world running

/-- After the cancellation eleven steps of the service's own are enough, and as
long as `serve` has not returned one is possible: an exchange with the database
can always fail, and the server can always end. -/
theorem shutdown_terminates (world : World) {before events : List ServiceEvent}
    {state final : Service} (ranBefore : (service world).run {} before = some state)
    (cancelled : state.cancelled = true)
    (ran : (service world).run state events = some final) :
    events.countP (fun event => Service.Own event) ≤ 11 ∧
      (¬ final.Returned → final.CanMove world) ∧
      ∃ rest returned, (service world).run final rest = some returned ∧ returned.Returned ∧
        (∀ event ∈ rest, Service.Own event) ∧
        events.countP (fun event => Service.Own event) + rest.length ≤ 11 := by
  have joinable := Service.joinable_of_run ranBefore
  have initially : (ending world).invariant state := ⟨joinable, cancelled⟩
  exact @Progress.terminates _ _ _ (ending world) _ _ _
    (inferInstanceAs (DecidablePred Service.Own)) _ initially joinable.orderly.left_le ran

/-- Cancelled between the check of the token and the tick, an import still starts. -/
theorem shutdown_terminates_sample :
    let world : World := { answers := fun _ => .ok [], clock := fun _ => 0 }
    let late : List ServiceEvent := [.pollTick true, .spawnImport, .fetchReturns 0, .joinImport]
    ∃ final rest returned, (service world).run {} ([.spawnImporter, .pollToken, .cancel] ++ late) =
        some final ∧ (service world).run final rest = some returned ∧ returned.Returned ∧
      late.countP (fun event => Service.Own event) + rest.length ≤ 11 := by
  intro world late
  have cancels : ∃ state final, (service world).run {} [.spawnImporter, .pollToken, .cancel] =
      some state ∧ state.cancelled = true ∧ (service world).run state late = some final :=
    ⟨_, _, rfl, rfl, rfl⟩
  obtain ⟨state, final, ranBefore, cancelled, ran⟩ := cancels
  obtain ⟨_, _, rest, returned, ranRest, isReturned, _, short⟩ :=
    shutdown_terminates world ranBefore cancelled ran
  exact ⟨final, rest, returned, Machine.run_trans ranBefore ran, ranRest, isReturned, short⟩

end BipaNodes.App
