import BipaNodes.App.Snapshot
import BipaNodes.Lib.Register
import BipaNodes.Lib.Simulation

/-!
# The service as an atomic register

For its readers the service is one value, which the imports replace one after
the other. An import is a write of the list it has fetched and takes effect with
its COMMIT; `GET /nodes` is a read at the instant of its SELECT.
-/

set_option autoImplicit false

namespace BipaNodes.App

open Domain (Node)
open Importer (TaskEnd TaskPhase)
open Replacement (Sound)
open Storage (OrderedByRank TableRow)

/-!
## Abstraction
-/

/-- Before the first import the table is empty. -/
def register (world : World) :
    Machine (Register.State Nat (List Node)) (Register.Action Nat (List Node)) :=
  Register.machine [] fun iteration => (world.call iteration).nodes

def Reader.reading : Reader → Register.Reading (List Node)
  | .idle => .idle
  | .selected _ seen => .sampled seen
  | .answered (.ok nodes) seen => .answered seen nodes
  | .answered (.error _) seen => .failed seen

namespace Service

def writer (state : Service) : Register.Writer :=
  if (state.tasks (state.started - 1)).inFlight then
    if state.started - 1 ∈ state.table.commits then .applied else .pending
  else
    .resting

def abstraction (state : Service) : Register.State Nat (List Node) where
  begun := state.started
  writer := state.writer
  log := state.table.commits
  readers := Reader.reading ∘ state.readers

def readAction (reader : Nat) : Reader → Register.Action Nat (List Node)
  | .answered (.ok nodes) _ => .answer reader nodes
  | _ => .fail reader

/-- What a step is to the register. Where a fetch comes to nothing, the write is
given up. -/
def actions (_ : Service) (event : ServiceEvent) (next : Service) :
    List (Register.Action Nat (List Node)) :=
  match event with
  | .spawnImport => [.begin]
  | .execute _ .commit => [.apply]
  | .succeeds _ => [.succeed]
  | .fetchReturns _ => if next.writer = .resting then [.abandon] else []
  | .fails _ _ | .panics _ _ => [.abandon]
  | .select reader => [.sample reader]
  | .deliver reader _ | .failRead reader _ => [readAction reader (next.readers reader)]
  | _ => []

/-!
## Invariant
-/

/-- Only the import that was started last can be in flight. -/
def Latest (state : Service) : Prop :=
  ∀ iteration, (state.tasks iteration).inFlight = true → iteration + 1 = state.started

structure Linear (world : World) (state : Service) : Prop where
  consistent : state.Consistent world
  latest : state.Latest

variable {world : World} {state next : Service}

theorem Latest.setTask (latest : state.Latest) {iteration : Nat} {phase : TaskPhase}
    (flying : phase.inFlight = true → iteration + 1 = state.started) :
    (state.setTask iteration phase).Latest := by
  intro other otherFlying
  simp only [Service.setTask] at otherFlying ⊢
  by_cases own : other = iteration
  · rw [own, Function.update_self] at otherFlying
    rw [own]
    exact flying otherFlying
  · rw [Function.update_of_ne own] at otherFlying
    exact latest other otherFlying

theorem spawnImport_eq_some (spawned : state.spawnImport = some next) :
    state.loop = .ticked ∧ next.started = state.started + 1 ∧
      next.tasks = Function.update state.tasks state.started .fetching ∧
      next.table = state.table ∧ next.readers = state.readers := by
  unfold Service.spawnImport at spawned
  split at spawned
  · next ticked =>
      cases spawned
      exact ⟨ticked, rfl, rfl, rfl, rfl⟩
  · cases spawned

theorem Linear.idle_of_ticked (linear : Linear world state) (ticked : state.loop = .ticked)
    (iteration : Nat) : (state.tasks iteration).inFlight = false :=
  linear.consistent.orderly.idle (by simp [ticked]) iteration

theorem Linear.step (linear : Linear world state) {event : ServiceEvent}
    (stepped : (service world).step state event = some next) : Linear world next := by
  refine ⟨linear.consistent.step stepped, ?_⟩
  cases step_effect stepped with
  | control _ started tasks =>
      intro iteration flying
      rw [tasks] at flying
      rw [started]
      exact linear.latest iteration flying
  | spawnImport spawned =>
      obtain ⟨ticked, started, tasks, _⟩ := spawnImport_eq_some spawned
      intro iteration flying
      rw [tasks] at flying
      rw [started]
      by_cases own : iteration = state.started
      · rw [own]
      · rw [Function.update_of_ne own, linear.idle_of_ticked ticked] at flying
        cases flying
  | replaces fetching =>
      exact linear.latest.setTask fun _ => linear.latest _ (by rw [fetching]; rfl)
  | ends _ taskEnd => exact linear.latest.setTask nofun
  | _ => exact linear.latest

theorem Linear.initial : Linear world {} :=
  ⟨Consistent.initial, nofun⟩

/-!
## Simulation
-/

theorem abstraction_of_frame (started : next.started = state.started)
    (tasks : next.tasks = state.tasks) (table : next.table = state.table)
    (readers : next.readers = state.readers) : next.abstraction = state.abstraction := by
  simp only [abstraction, writer, started, tasks, table, readers]

theorem actions_control {event : ServiceEvent} (isControl : Control event) :
    state.actions event next = [] := by
  cases event <;> first | rfl | exact isControl.elim

theorem Linear.writer_flying (linear : Linear world state) {iteration : Nat}
    (flying : (state.tasks iteration).inFlight = true) :
    state.writer = if iteration ∈ state.table.commits then .applied else .pending := by
  have last : state.started - 1 = iteration := by
    rw [← linear.latest iteration flying, Nat.add_sub_cancel]
  rw [writer, last, if_pos flying]

theorem writer_resting (none : ∀ iteration, (state.tasks iteration).inFlight = false) :
    state.writer = .resting := by
  rw [writer, none]
  rfl

theorem Linear.step_spawnImport (linear : Linear world state)
    (spawned : state.spawnImport = some next) :
    (register world).step state.abstraction .begin = some next.abstraction := by
  obtain ⟨ticked, started, tasks, table, readers⟩ := spawnImport_eq_some spawned
  have resting := writer_resting (linear.idle_of_ticked ticked)
  have kept := linear.consistent.kept
  have idle := kept.untouched state.started
    (.inl (linear.consistent.orderly.unspawned state.started (Nat.le_refl _)))
  have fresh : state.started ∉ state.table.commits := by
    intro committed
    rw [(kept.sound.mem_commits_iff state.started).mp committed] at idle
    cases idle
  have pending : next.writer = .pending := by
    rw [writer, started, Nat.add_sub_cancel, tasks, Function.update_self, table]
    simp [TaskPhase.inFlight, fresh]
  simp [register, Register.machine, abstraction, resting, pending, started, table, readers]

@[simp] theorem abstraction_writer : state.abstraction.writer = state.writer := rfl

theorem abstraction_setTask (iteration : Nat) (phase : TaskPhase) :
    (state.setTask iteration phase).abstraction =
      { state.abstraction with writer := (state.setTask iteration phase).writer } := rfl

theorem Linear.step_ends (linear : Linear world state) {iteration : Nat} (taskEnd : TaskEnd)
    (flying : (state.tasks iteration).inFlight = true) :
    (state.setTask iteration (.ended taskEnd)).writer = .resting ∧
      (register world).step state.abstraction .abandon =
        some (state.setTask iteration (.ended taskEnd)).abstraction := by
  have last : state.started - 1 = iteration := by
    rw [← linear.latest iteration flying, Nat.add_sub_cancel]
  have resting : (state.setTask iteration (.ended taskEnd)).writer = .resting := by
    simp [writer, setTask, last, TaskPhase.inFlight]
  refine ⟨resting, ?_⟩
  have active := linear.writer_flying flying
  rw [abstraction_setTask, resting]
  by_cases committed : iteration ∈ state.table.commits
  · simp [register, Register.machine, active, committed]
  · simp [register, Register.machine, active, committed]

theorem Linear.step_succeeds (linear : Linear world state) {iteration : Nat}
    (succeeded : state.succeeds world iteration = some next) :
    (register world).step state.abstraction .succeed = some next.abstraction ∧
      state.started = iteration + 1 := by
  unfold Service.succeeds at succeeded
  split at succeeded
  · next replacing committed =>
      cases succeeded
      have flying : (state.tasks iteration).inFlight = true := by rw [replacing]; rfl
      have listed := (linear.consistent.kept.sound.mem_commits_iff iteration).mpr committed
      have applied := linear.writer_flying flying
      rw [if_pos listed] at applied
      have resting := (linear.step_ends (.returned (.ok ⟨(world.call iteration).nodes.length⟩))
        flying).1
      refine ⟨?_, (linear.latest iteration flying).symm⟩
      rw [endTask, abstraction_setTask, resting]
      simp [register, Register.machine, applied]
  · cases succeeded

theorem Linear.step_replaces (linear : Linear world state) {iteration : Nat}
    (fetching : state.tasks iteration = .fetching) :
    (state.setTask iteration .replacing).writer ≠ .resting ∧
      (state.setTask iteration .replacing).abstraction = state.abstraction := by
  have flying : (state.tasks iteration).inFlight = true := by rw [fetching]; rfl
  have last : state.started - 1 = iteration := by
    rw [← linear.latest iteration flying, Nat.add_sub_cancel]
  have active := linear.writer_flying flying
  have same : (state.setTask iteration .replacing).writer = state.writer := by
    rw [active]
    simp [writer, setTask, last, TaskPhase.inFlight]
  constructor
  · rw [same, active]
    split <;> simp
  · rw [abstraction_setTask, same]
    rfl

theorem Linear.step_commit (linear : Linear world state) {iteration : Nat}
    {table : Replacement.State Nat TableRow} (replacing : state.tasks iteration = .replacing)
    (committed : state.table.commit iteration = some table) :
    (register world).step state.abstraction .apply =
      some (abstraction { state with table }) := by
  have flying : (state.tasks iteration).inFlight = true := by rw [replacing]; rfl
  have last : state.started - 1 = iteration := by
    rw [← linear.latest iteration flying, Nat.add_sub_cancel]
  have phase := (Replacement.State.commit_eq_some.mp committed).1
  have fresh : iteration ∉ state.table.commits := by
    intro listed
    rw [(linear.consistent.kept.sound.mem_commits_iff iteration).mp listed] at phase
    cases phase
  have pending := linear.writer_flying flying
  rw [if_neg fresh] at pending
  have commits := Replacement.commits_commit committed
  have applied : writer { state with table } = .applied := by
    simp [writer, last, flying, commits]
  simp [register, Register.machine, abstraction, pending, applied, last, commits]

theorem abstraction_of_commits {table : Replacement.State Nat TableRow}
    (commits : table.commits = state.table.commits) :
    abstraction { state with table } = state.abstraction := by
  simp [abstraction, writer, commits]

theorem LastImport.content {commits : List Nat} {nodes : List Node}
    (last : LastImport world commits nodes) :
    nodes = Register.content [] (fun iteration => (world.call iteration).nodes) commits := by
  unfold LastImport at last
  unfold Register.content
  cases latest : commits.getLast? with
  | none =>
      rw [latest] at last
      exact last
  | some iteration =>
      rw [latest] at last
      have fetched := last.1
      simp [World.call, fetched, Except.toOption]

theorem abstraction_setReader (reader : Nat) (phase : Reader) :
    (state.setReader reader phase).abstraction =
      state.abstraction.setReader reader phase.reading := by
  rw [abstraction, Register.State.setReader]
  simp only [setReader, Function.comp_update]
  rfl

theorem step_select {reader : Nat} (selected : state.select reader = some next) :
    (register world).step state.abstraction (.sample reader) = some next.abstraction := by
  unfold Service.select at selected
  split at selected
  · next idle =>
      cases selected
      have idleAbove : state.abstraction.readers reader = .idle := by
        simp [abstraction, idle, Reader.reading]
      simp only [register, Register.machine, idleAbove, abstraction_setReader]
      rfl
  · cases selected

theorem abstraction_selected {reader : Nat} {rows : List TableRow} {seen : List Nat}
    (selected : state.readers reader = .selected rows seen) :
    state.abstraction.readers reader = .sampled seen := by
  simp [abstraction, selected, Reader.reading]

theorem readers_setReader (reader : Nat) (phase : Reader) :
    (state.setReader reader phase).readers reader = phase :=
  Function.update_self ..

theorem Linear.step_deliver (linear : Linear world state) {reader : Nat}
    {delivered : List TableRow} (answered : state.deliver reader delivered = some next) :
    (register world).step state.abstraction (readAction reader (next.readers reader)) =
      some next.abstraction := by
  unfold Service.deliver at answered
  split at answered
  · next rows seen selected =>
      split at answered
      · next ordered =>
          cases answered
          have kept := linear.consistent.readersKept reader
          rw [selected] at kept
          obtain ⟨nodes, listed, last⟩ := kept.1.listNodes ordered
          have content := LastImport.content last
          rw [listed, abstraction_setReader, readers_setReader]
          simp [register, Register.machine, readAction, abstraction_selected selected,
            Reader.reading, content]
      · cases answered
  · cases answered

theorem step_failRead {reader : Nat} {error : Storage.SqlxError}
    (failed : state.failRead reader error = some next) :
    (register world).step state.abstraction (readAction reader (next.readers reader)) =
      some next.abstraction := by
  unfold Service.failRead at failed
  split at failed
  · next rows seen selected =>
      cases failed
      rw [abstraction_setReader, readers_setReader]
      have listed : Storage.listNodes (.error error) = .error (.database error) := rfl
      simp [register, Register.machine, readAction, abstraction_selected selected,
        Reader.reading, listed]
  · cases failed

theorem Linear.step_execute (linear : Linear world state) {iteration : Nat}
    {statement : Statement} (executed : state.execute world iteration statement = some next) :
    (register world).run state.abstraction (state.actions (.execute iteration statement) next) =
      some next.abstraction := by
  unfold Service.execute at executed
  split at executed
  · next replacing =>
      obtain ⟨table, stepped, rfl⟩ := Option.map_eq_some_iff.mp executed
      by_cases isCommit : statement = .commit
      · subst isCommit
        rw [actions, Machine.run_singleton]
        exact linear.step_commit replacing stepped
      · have noCommit : ∀ other, statement.event iteration ≠ .commit other := by
          intro other
          cases statement <;> simp [Statement.event] at isCommit ⊢
        have silent : state.actions (.execute iteration statement) { state with table } = [] := by
          cases statement <;> simp [actions] at isCommit ⊢
        rw [silent, abstraction_of_commits (Replacement.quiet_step stepped noCommit).commits]
        rfl
  · cases executed

theorem step_rollback (world : World) {iteration : Nat}
    (rolledBack : state.rollback iteration = some next) : next.abstraction = state.abstraction := by
  obtain ⟨table, stepped, rfl⟩ := Option.map_eq_some_iff.mp rolledBack
  have executed : (Storage.database world.call).step state.table (.rollback iteration) =
      some table := stepped
  exact abstraction_of_commits (Replacement.quiet_step executed (by simp)).commits

/-- Each step is the register's, or nothing to it. -/
theorem Linear.simulates (linear : Linear world state) {event : ServiceEvent}
    (stepped : (service world).step state event = some next) :
    (register world).run state.abstraction (state.actions event next) = some next.abstraction := by
  by_cases isControl : Control event
  · rw [actions_control isControl]
    cases step_effect stepped with
    | control _ started tasks table readers =>
        rw [abstraction_of_frame started tasks table readers]
        rfl
    | ends work => exact absurd isControl work
    | _ => exact isControl.elim
  · cases event with
    | spawnImport =>
        rw [actions, Machine.run_singleton]
        exact linear.step_spawnImport stepped
    | fetchReturns iteration =>
        cases step_effect stepped with
        | control absurdly => exact absurd absurdly isControl
        | replaces fetching =>
            obtain ⟨active, same⟩ := linear.step_replaces fetching
            rw [actions, if_neg active, same]
            rfl
        | ends _ taskEnd flying =>
            obtain ⟨resting, abandoned⟩ := linear.step_ends taskEnd flying
            rw [actions, if_pos resting, Machine.run_singleton]
            exact abandoned
    | fails | panics =>
        rw [actions, Machine.run_singleton]
        cases step_effect stepped with
        | control absurdly => exact absurd absurdly isControl
        | ends _ taskEnd flying => exact (linear.step_ends taskEnd flying).2
    | execute iteration statement => exact linear.step_execute stepped
    | succeeds iteration =>
        rw [actions, Machine.run_singleton]
        exact (linear.step_succeeds stepped).1
    | rollback iteration =>
        rw [step_rollback world stepped]
        rfl
    | select reader =>
        rw [actions, Machine.run_singleton]
        exact step_select stepped
    | deliver reader delivered =>
        rw [actions, Machine.run_singleton]
        exact linear.step_deliver stepped
    | failRead reader error =>
        rw [actions, Machine.run_singleton]
        exact step_failRead stepped
    | _ => exact absurd trivial isControl

end Service

/-- The service implements the register. -/
def atomicService (world : World) : Simulation (service world) (register world) where
  invariant := Service.Linear world
  abstraction := Service.abstraction
  actions := Service.actions
  preserves linear stepped := linear.step stepped
  simulates linear stepped := linear.simulates stepped

/-!
## Runs
-/

section

variable {world : World} {final : Service} {events : List ServiceEvent}

theorem linear_of_run (ran : (service world).run {} events = some final) : final.Linear world :=
  Machine.run_preserves (fun _ _ _ linear stepped => Service.Linear.step linear stepped)
    Service.Linear.initial ran

/-- Every run of the service is a run of the register, whose value is what a
SELECT on the table would list. -/
theorem service_refines_register (world : World) {events : List ServiceEvent} {final : Service}
    (ran : (service world).run {} events = some final) :
    (register world).run {} ((atomicService world).trace {} events) = some final.abstraction ∧
      ∀ delivered, OrderedByRank final.table.liveRows delivered →
        Storage.listNodes (.ok delivered) =
          .ok (Register.content [] (fun iteration => (world.call iteration).nodes)
            final.abstraction.log) := by
  refine ⟨(atomicService world).run Service.Linear.initial ran, ?_⟩
  intro delivered ordered
  obtain ⟨nodes, listed, last⟩ :=
    (linear_of_run ran).consistent.kept.holds.listNodes ordered
  rw [listed, Service.LastImport.content last]
  rfl

/-- The first import lists one node, the later ones another. -/
def sampleWorld : World where
  answers iteration := .ok [Importer.sampleRecord (if iteration = 0 then "02ab" else "03cd")]
  clock _ := 0

/-- An import over rows at the given positions, up to the reply of its COMMIT. -/
def importEvents (iteration : Nat) (positions : List Nat) : List ServiceEvent :=
  [.pollToken, .pollTick true, .spawnImport, .fetchReturns iteration,
    .execute iteration .begin, .execute iteration .delete] ++
  positions.map (fun position => .execute iteration (.deleteRow position)) ++
  [.execute iteration .insert, .execute iteration .insertRow, .execute iteration .commit]

def firstRows : List TableRow := Storage.rowsOf 0 [Domain.sampleNode "02ab"]

def laterRows : List TableRow := Storage.rowsOf 0 [Domain.sampleNode "03cd"]

theorem service_refines_register_sample :
    ∃ final, (register sampleWorld).run {} ((atomicService sampleWorld).trace {}
        (.spawnImporter :: importEvents 0 [] ++ [.succeeds 0])) = some final ∧
      final.log = [0] ∧ final.writer = .resting := by
  have imports : ∃ final, (service sampleWorld).run {}
      (.spawnImporter :: importEvents 0 [] ++ [.succeeds 0]) = some final ∧
      final.table.commits = [0] ∧ final.writer = .resting := ⟨_, rfl, rfl, rfl⟩
  obtain ⟨final, ran, commits, writer⟩ := imports
  exact ⟨final.abstraction, (service_refines_register sampleWorld ran).1, commits, writer⟩

theorem abstraction_answered {reader : Nat} {nodes : List Node} {seen : List Nat}
    (answered : final.readers reader = .answered (.ok nodes) seen) :
    final.abstraction.readers reader = .answered seen nodes := by
  simp [Service.abstraction, answered, Reader.reading]

theorem LastImport.fetched {commits : List Nat} {nodes : List Node} {iteration : Nat}
    (last : LastImport world commits nodes) (latest : commits.getLast? = some iteration) :
    world.fetched iteration = .ok nodes ∧ nodes ≠ [] := by
  unfold LastImport at last
  rw [latest] at last
  exact last

theorem LastImport.empty {commits : List Nat} {nodes : List Node}
    (last : LastImport world commits nodes) (before : commits.getLast? = none) : nodes = [] := by
  unfold LastImport at last
  rw [before] at last
  exact last

theorem Service.Consistent.committed_started (consistent : final.Consistent world)
    {iteration : Nat} (committed : iteration ∈ final.table.commits) :
    iteration < final.started := by
  by_contra late
  have unspawned := consistent.orderly.unspawned iteration (Nat.not_lt.mp late)
  have idle := consistent.kept.untouched iteration (.inl unspawned)
  rw [(consistent.kept.sound.mem_commits_iff iteration).mp committed] at idle
  cases idle

/-- A SELECT that has seen these COMMITs gets this list, of the import that was
the last to commit. -/
structure Service.Shows (world : World) (state : Service) (seen : List Nat) (iteration : Nat)
    (nodes : List Node) : Prop where
  latest : seen.getLast? = some iteration
  committed : seen <+: state.table.commits
  started : iteration < state.started
  fetched : world.fetched iteration = .ok nodes
  filled : nodes ≠ []

theorem Service.Consistent.answeredKept (consistent : final.Consistent world) {reader : Nat}
    {nodes : List Node} {seen : List Nat}
    (answered : final.readers reader = .answered (.ok nodes) seen) :
    LastImport world seen nodes ∧ seen <+: final.table.commits := by
  have kept := consistent.readersKept reader
  rw [answered] at kept
  exact kept

theorem Service.Consistent.shows (consistent : final.Consistent world) {reader iteration : Nat}
    {nodes : List Node} {seen : List Nat}
    (answered : final.readers reader = .answered (.ok nodes) seen)
    (latest : seen.getLast? = some iteration) : final.Shows world seen iteration nodes := by
  obtain ⟨last, seenBefore⟩ := consistent.answeredKept answered
  obtain ⟨fetched, filled⟩ := last.fetched latest
  have committed := seenBefore.subset (List.mem_of_getLast? latest)
  exact ⟨latest, seenBefore, consistent.committed_started committed, fetched, filled⟩

end

/-!
## What readers can rely on
-/

/-- What runs the service, once or again and again, and is the register through
it. -/
structure Carrier (world : World) {Below Event : Type} (machine : Machine Below Event) where
  service : Below → Service
  implementation : Simulation machine (register world)
  start : Below
  initially : implementation.invariant start
  unused : service start = {}
  linear : ∀ {state : Below}, implementation.invariant state → (service state).Linear world
  shown : ∀ state, implementation.abstraction state = (service state).abstraction

namespace Carrier

variable {world : World} {Below Event : Type} {machine : Machine Below Event}
  (carrier : Carrier world machine) {reached : Below} {before middle after : List Event}

theorem linear_of_run {events : List Event}
    (ran : machine.run carrier.start events = some reached) :
    (carrier.service reached).Linear world :=
  carrier.linear
    (Machine.run_preserves (fun _ _ _ => carrier.implementation.preserves) carrier.initially ran)

theorem register_initially :
    Register.Invariant [] (fun iteration => (world.call iteration).nodes)
      (carrier.implementation.abstraction carrier.start) := by
  rw [carrier.shown, carrier.unused]
  exact Register.Invariant.initially

theorem answered_above {reader : Nat} {nodes : List Node} {seen : List Nat}
    (answered : (carrier.service reached).readers reader = .answered (.ok nodes) seen) :
    (carrier.implementation.abstraction reached).readers reader = .answered seen nodes := by
  rw [carrier.shown]
  exact abstraction_answered answered

theorem follows_imports {success selection : Event} {iteration reader : Nat} {nodes : List Node}
    {seen : List Nat}
    (succeeds : Register.Does carrier.implementation success .succeed)
    (succeeding : ∀ state next, machine.step state success = some next →
      ∃ served, (carrier.service state).succeeds world iteration = some served)
    (samples : Register.Does carrier.implementation selection (.sample reader))
    (ran : machine.run carrier.start (before ++ success :: (middle ++ selection :: after)) =
      some reached)
    (answered : (carrier.service reached).readers reader = .answered (.ok nodes) seen) :
    ∃ later, iteration ≤ later ∧ (carrier.service reached).Shows world seen later nodes := by
  have consistent := (carrier.linear_of_run ran).consistent
  obtain ⟨replaced, ranBefore, later, began, latest⟩ :=
    Register.reads_after_success carrier.initially carrier.register_initially succeeds samples
      ran (carrier.answered_above answered)
  rw [Machine.run_append, ranBefore, Option.bind_some] at ran
  obtain ⟨next, stepped, _⟩ := Option.bind_eq_some_iff.mp ran
  obtain ⟨served, succeeded⟩ := succeeding replaced next stepped
  have started := ((carrier.linear_of_run ranBefore).step_succeeds succeeded).2
  rw [carrier.shown, Service.abstraction, started, Nat.add_sub_cancel] at began
  exact ⟨later, began, consistent.shows answered latest⟩

theorem never_goes_back {firstSelection secondSelection : Event} {first second : Nat}
    {nodes laterNodes : List Node} {seen laterSeen : List Nat}
    (samplesFirst : Register.Does carrier.implementation firstSelection (.sample first))
    (samplesSecond : Register.Does carrier.implementation secondSelection (.sample second))
    (ran : machine.run carrier.start
      (before ++ firstSelection :: (middle ++ secondSelection :: after)) = some reached)
    (firstAnswered : (carrier.service reached).readers first = .answered (.ok nodes) seen)
    (secondAnswered : (carrier.service reached).readers second =
      .answered (.ok laterNodes) laterSeen) :
    seen = [] ∧ nodes = [] ∨ ∃ iteration later, iteration ≤ later ∧
      (carrier.service reached).Shows world seen iteration nodes ∧
      (carrier.service reached).Shows world laterSeen later laterNodes := by
  have consistent := (carrier.linear_of_run ran).consistent
  cases latest : seen.getLast? with
  | none =>
      have empty := (consistent.answeredKept firstAnswered).1.empty latest
      exact .inl ⟨List.getLast?_eq_none_iff.mp latest, empty⟩
  | some iteration =>
      have grown := (consistent.answeredKept secondAnswered).2
      have log : (carrier.implementation.abstraction reached).log =
          (carrier.service reached).table.commits := by
        rw [carrier.shown]
        rfl
      obtain ⟨later, ordered, laterLatest⟩ :=
        Register.reads_in_order carrier.initially carrier.register_initially samplesFirst
          samplesSecond ran (carrier.answered_above firstAnswered)
          (carrier.answered_above secondAnswered) (log ▸ grown) latest
      exact .inr ⟨iteration, later, ordered, consistent.shows firstAnswered latest,
        consistent.shows secondAnswered laterLatest⟩

end Carrier

/-- One process. -/
def alone (world : World) : Carrier world (service world) where
  service := id
  implementation := atomicService world
  start := {}
  initially := Service.Linear.initial
  unused := rfl
  linear := id
  shown _ := rfl

theorem does_succeed (world : World) (iteration : Nat) :
    Register.Does (atomicService world) (.succeeds iteration) .succeed := fun _ _ _ => rfl

theorem does_sample (world : World) (reader : Nat) :
    Register.Does (atomicService world) (.select reader) (.sample reader) := fun _ _ _ => rfl

/-- What a reader gets whose SELECT comes after an import has reported success:
that import, or one that started later, as the SELECT has seen it committed. -/
theorem reads_follow_imports (world : World) {before middle after : List ServiceEvent}
    {iteration reader : Nat} {final : Service} {nodes : List Node} {seen : List Nat}
    (ran : (service world).run {}
      (before ++ .succeeds iteration :: (middle ++ .select reader :: after)) = some final)
    (answered : final.readers reader = .answered (.ok nodes) seen) :
    ∃ later, iteration ≤ later ∧ final.Shows world seen later nodes := by
  refine (alone world).follows_imports (does_succeed world iteration) ?_ (does_sample world reader)
    ran answered
  intro state next stepped
  exact ⟨next, stepped⟩

theorem reads_follow_imports_sample :
    ∃ final later, 0 ≤ later ∧
      Service.Shows sampleWorld final [0] later [Domain.sampleNode "02ab"] := by
  have reads : ∃ final, (service sampleWorld).run {}
      ((.spawnImporter :: importEvents 0 []) ++ .succeeds 0 ::
        ([.joinImport] ++ .select 0 :: [.deliver 0 firstRows])) = some final ∧
      final.readers 0 = .answered (.ok [Domain.sampleNode "02ab"]) [0] := ⟨_, rfl, rfl⟩
  obtain ⟨final, ran, answered⟩ := reads
  exact ⟨final, reads_follow_imports sampleWorld ran answered⟩

/-- Of two reads, the one that selects later gets the same import or one that
started later; only the earlier of the two can be from before the first. -/
theorem reads_never_go_back (world : World) {before middle after : List ServiceEvent}
    {first second : Nat} {final : Service} {nodes laterNodes : List Node}
    {seen laterSeen : List Nat}
    (ran : (service world).run {}
      (before ++ .select first :: (middle ++ .select second :: after)) = some final)
    (firstAnswered : final.readers first = .answered (.ok nodes) seen)
    (secondAnswered : final.readers second = .answered (.ok laterNodes) laterSeen) :
    seen = [] ∧ nodes = [] ∨ ∃ iteration later, iteration ≤ later ∧
      final.Shows world seen iteration nodes ∧ final.Shows world laterSeen later laterNodes :=
  (alone world).never_goes_back (does_sample world first) (does_sample world second) ran
    firstAnswered secondAnswered

theorem reads_never_go_back_sample :
    ∃ final iteration later, iteration ≤ later ∧
      Service.Shows sampleWorld final [0] iteration [Domain.sampleNode "02ab"] ∧
      Service.Shows sampleWorld final [0, 1] later [Domain.sampleNode "03cd"] := by
  have reads : ∃ final, (service sampleWorld).run {}
      ((.spawnImporter :: importEvents 0 []) ++ .select 0 ::
        (([.deliver 0 firstRows, .succeeds 0, .joinImport, .log] ++ importEvents 1 [0]) ++
          .select 1 :: [.deliver 1 laterRows])) = some final ∧
      final.readers 0 = .answered (.ok [Domain.sampleNode "02ab"]) [0] ∧
      final.readers 1 = .answered (.ok [Domain.sampleNode "03cd"]) [0, 1] := ⟨_, rfl, rfl, rfl⟩
  obtain ⟨final, ran, firstAnswered, secondAnswered⟩ := reads
  have ordered := reads_never_go_back sampleWorld ran firstAnswered secondAnswered
  exact ⟨final, ordered.resolve_left (by simp)⟩

end BipaNodes.App
