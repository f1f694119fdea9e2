import BipaNodes.App.Atomic

/-!
# Restarts

The deployment starts the service again whenever its process has ended, however
it ended. The table stays, and imports are numbered on through all processes.
-/

set_option autoImplicit false

namespace BipaNodes.App

open Domain (Node)
open Importer (TaskPhase)
open Storage (OrderedByRank TableRow)

/-- With its process a task is gone, wherever it was. -/
def killed : TaskPhase → TaskPhase
  | .fetching | .replacing => .ended (.panicked "killed")
  | phase => phase

def Reader.pending : Reader → Bool
  | .selected _ _ => true
  | _ => false

/-- A new process once `serve` has spawned its importer; until then a process
does nothing to `nodes`. What the old one left open in the table can only be
rolled back: a COMMIT that it has sent is executed before this, or never. -/
def Service.restart (state : Service) : Service where
  serve := .serving
  loop := .checkToken
  started := state.started
  tasks := killed ∘ state.tasks
  table := state.table
  readers := state.readers

structure Deployment where
  service : Service := {}
  /-- Calls whose process has ended before it answered. -/
  orphaned : Nat → Bool := fun _ => false

inductive DeploymentEvent where
  | service (event : ServiceEvent)
  /-- The process ends, be it on its own or killed, and another one serves. -/
  | restart

/-- Nobody is left to deliver what an orphaned call has selected. -/
def Deployment.allows (state : Deployment) : ServiceEvent → Bool
  | .deliver reader _ => !state.orphaned reader
  | _ => true

def Deployment.restarted (state : Deployment) : Deployment where
  service := state.service.restart
  orphaned reader := state.orphaned reader || (state.service.readers reader).pending

def deployment (world : World) : Machine Deployment DeploymentEvent where
  step state
    | .service event =>
        if state.allows event then
          ((App.service world).step state.service event).map fun service =>
            { state with service }
        else
          none
    | .restart => some state.restarted

/-!
## A restart
-/

namespace Service

variable {world : World} {state : Service}

@[simp] theorem not_inFlight_killed (phase : TaskPhase) : (killed phase).inFlight = false := by
  cases phase <;> rfl

theorem killed_eq_unspawned {phase : TaskPhase} : killed phase = .unspawned ↔
    phase = .unspawned := by
  cases phase <;> simp [killed]

theorem killed_ne_fetching (phase : TaskPhase) : killed phase ≠ .fetching := by
  cases phase <;> simp [killed]

theorem killed_ne_replacing (phase : TaskPhase) : killed phase ≠ .replacing := by
  cases phase <;> simp [killed]

theorem Orderly.restart (orderly : state.Orderly) : state.restart.Orderly where
  unspawned iteration late := killed_eq_unspawned.mpr (orderly.unspawned iteration late)
  spawned iteration early := mt killed_eq_unspawned.mp (orderly.spawned iteration early)
  awaited iteration flying := by simp [Service.restart] at flying
  atServe := ⟨nofun, rfl⟩
  lateBound := ⟨fun _ => ⟨rfl, rfl⟩, nofun⟩

theorem Consistent.restart (consistent : Consistent world state) :
    Consistent world state.restart := by
  refine ⟨consistent.orderly.restart, ⟨consistent.kept.sound, ?_, ?_, ?_, consistent.kept.holds⟩,
    consistent.readersKept⟩
  · intro iteration early
    rcases early with unspawned | fetching
    · exact consistent.kept.untouched iteration (.inl (killed_eq_unspawned.mp unspawned))
    · exact absurd fetching (killed_ne_fetching _)
  · intro iteration replacing
    exact absurd replacing (killed_ne_replacing _)
  · intro iteration replacing
    exact absurd replacing (killed_ne_replacing _)

theorem Linear.restart (linear : Linear world state) : Linear world state.restart := by
  refine ⟨linear.consistent.restart, ?_⟩
  intro iteration flying
  simp [Service.restart] at flying

/-- Whatever was being imported is given up. -/
def restartActions (state : Service) : List (Register.Action Nat (List Node)) :=
  if state.writer = .resting then [] else [.abandon]

theorem abstraction_restart : state.restart.abstraction =
    { state.abstraction with writer := .resting } := by
  have resting : state.restart.writer = .resting :=
    writer_resting fun iteration => not_inFlight_killed (state.tasks iteration)
  rw [abstraction, resting]
  rfl

theorem simulates_restart (world : World) (state : Service) :
    (register world).run state.abstraction state.restartActions =
      some state.restart.abstraction := by
  rw [abstraction_restart, restartActions]
  cases writer : state.writer with
  | resting => simp [Machine.run, abstraction, writer]
  | pending | applied => simp [Machine.run, register, Register.machine, writer]

end Service

/-!
## Runs
-/

namespace Deployment

variable {world : World} {state next : Deployment}

theorem step_eq_some {event : ServiceEvent}
    (stepped : (deployment world).step state (.service event) = some next) :
    (App.service world).step state.service event = some next.service ∧
      next.orphaned = state.orphaned := by
  simp only [deployment] at stepped
  split at stepped
  · obtain ⟨service, served, rfl⟩ := Option.map_eq_some_iff.mp stepped
    exact ⟨served, rfl⟩
  · cases stepped

end Deployment

/-- The deployment implements the register of the service, which outlives the
processes. -/
def durableService (world : World) : Simulation (deployment world) (register world) where
  invariant state := state.service.Linear world
  abstraction state := state.service.abstraction
  actions state
    | .service event, next => state.service.actions event next.service
    | .restart, _ => state.service.restartActions
  preserves := by
    intro state event next linear stepped
    cases event with
    | service event => exact linear.step (Deployment.step_eq_some stepped).1
    | restart =>
        cases stepped
        exact linear.restart
  simulates := by
    intro state event next linear stepped
    cases event with
    | service event => exact linear.simulates (Deployment.step_eq_some stepped).1
    | restart =>
        cases stepped
        exact Service.simulates_restart world state.service

section

variable {world : World} {final : Deployment} {events : List DeploymentEvent}

theorem durable_initial : (durableService world).invariant {} := Service.Linear.initial

theorem durable_of_run (ran : (deployment world).run {} events = some final) :
    final.service.Linear world :=
  Machine.run_preserves (fun _ _ _ => (durableService world).preserves) durable_initial ran

/-- Over any number of processes the service is one register: a restart gives up
the write under way and keeps its value. -/
theorem restarts_refine_register (world : World) {events : List DeploymentEvent}
    {final : Deployment} (ran : (deployment world).run {} events = some final) :
    (register world).run {} ((durableService world).trace {} events) =
        some final.service.abstraction ∧
      ∀ delivered, OrderedByRank final.service.table.liveRows delivered →
        Storage.listNodes (.ok delivered) =
          .ok (Register.content [] (fun iteration => (world.call iteration).nodes)
            final.service.abstraction.log) := by
  refine ⟨(durableService world).run durable_initial ran, ?_⟩
  intro delivered ordered
  obtain ⟨nodes, listed, last⟩ :=
    (durable_of_run ran).consistent.kept.holds.listNodes ordered
  rw [listed, Service.LastImport.content last]
  rfl

/-- The second import is killed while it holds the lock on the row of the first. -/
def killedInside : List DeploymentEvent :=
  List.map .service (.spawnImporter :: importEvents 0 []) ++
    .service (.succeeds 0) ::
      List.map .service [.joinImport, .log, .pollToken, .pollTick true, .spawnImport,
        .fetchReturns 1, .execute 1 .begin, .execute 1 .delete, .execute 1 (.deleteRow 0)]

theorem restarts_refine_register_sample :
    ∃ final, (register sampleWorld).run {} ((durableService sampleWorld).trace {}
        (killedInside ++ [.restart, .service (.select 0)])) = some final ∧
      final.log = [0] ∧ final.writer = .resting ∧ final.begun = 2 := by
  have restarted : ∃ final, (deployment sampleWorld).run {}
      (killedInside ++ [.restart, .service (.select 0)]) = some final ∧
      final.service.table.commits = [0] ∧ final.service.writer = .resting ∧
      final.service.started = 2 := ⟨_, rfl, rfl, rfl, rfl⟩
  obtain ⟨final, ran, commits, writer, started⟩ := restarted
  exact ⟨final.service.abstraction, (restarts_refine_register sampleWorld ran).1, commits, writer,
    started⟩

/-- Any number of processes, one after the other. -/
def restarting (world : World) : Carrier world (deployment world) where
  service := Deployment.service
  implementation := durableService world
  start := {}
  initially := durable_initial
  unused := rfl
  linear := id
  shown _ := rfl

theorem durable_succeed (world : World) (iteration : Nat) :
    Register.Does (durableService world) (.service (.succeeds iteration)) .succeed :=
  fun _ _ _ => rfl

theorem durable_sample (world : World) (reader : Nat) :
    Register.Does (durableService world) (.service (.select reader)) (.sample reader) :=
  fun _ _ _ => rfl

/-- What an import has reported, or a reader has seen, holds through every later
restart: a read that selects later gets that import, or one that started later. -/
theorem reads_survive_restarts (world : World) {before middle after : List DeploymentEvent}
    {event : ServiceEvent} {reader : Nat} {final : Deployment} {nodes : List Node}
    {seen : List Nat}
    (ran : (deployment world).run {}
      (before ++ .service event :: (middle ++ .service (.select reader) :: after)) = some final)
    (answered : final.service.readers reader = .answered (.ok nodes) seen) :
    (∀ iteration, event = .succeeds iteration →
      ∃ later, iteration ≤ later ∧ final.service.Shows world seen later nodes) ∧
    ∀ first earlierNodes earlierSeen, event = .select first →
      final.service.readers first = .answered (.ok earlierNodes) earlierSeen →
      earlierSeen = [] ∧ earlierNodes = [] ∨ ∃ iteration later, iteration ≤ later ∧
        final.service.Shows world earlierSeen iteration earlierNodes ∧
        final.service.Shows world seen later nodes := by
  constructor
  · rintro iteration rfl
    refine (restarting world).follows_imports (durable_succeed world iteration) ?_
      (durable_sample world reader) ran answered
    intro state next stepped
    exact ⟨next.service, (Deployment.step_eq_some stepped).1⟩
  · rintro first earlierNodes earlierSeen rfl firstAnswered
    exact (restarting world).never_goes_back (durable_sample world first)
      (durable_sample world reader) ran firstAnswered answered

theorem reads_survive_restarts_sample :
    ∃ final later, 0 ≤ later ∧
      Service.Shows sampleWorld final [0] later [Domain.sampleNode "02ab"] := by
  have reads : ∃ final, (deployment sampleWorld).run {}
      (List.map .service (.spawnImporter :: importEvents 0 []) ++ .service (.succeeds 0) ::
        ((List.map .service [.joinImport, .log, .pollToken, .pollTick true, .spawnImport,
          .fetchReturns 1, .execute 1 .begin, .execute 1 .delete, .execute 1 (.deleteRow 0)] ++
            [.restart]) ++
          .service (.select 0) :: [.service (.deliver 0 firstRows)])) = some final ∧
      final.service.readers 0 = .answered (.ok [Domain.sampleNode "02ab"]) [0] := ⟨_, rfl, rfl⟩
  obtain ⟨final, ran, answered⟩ := reads
  exact ⟨final.service, (reads_survive_restarts sampleWorld ran answered).1 0 rfl⟩

end

end BipaNodes.App
