import BipaNodes.App.Restart
import BipaNodes.Lib.ReplacementProgress

/-!
# Recovery

Wherever a process has been killed, and whatever its transactions have locked,
the next process can complete its first import.
-/

set_option autoImplicit false

namespace BipaNodes.App

open Domain (Node)
open Importer (TaskPhase)
open Replacement (Outcome Unhindered)
open Storage (Accepted Call OrderedByRank TableRow)

namespace Service

variable {world : World} {state : Service}

/-- What reaches the database in the name of an iteration. -/
def sent : Replacement.Event Nat → ServiceEvent
  | .begin iteration => .execute iteration .begin
  | .delete iteration => .execute iteration .delete
  | .deleteRow iteration position => .execute iteration (.deleteRow position)
  | .insert iteration => .execute iteration .insert
  | .insertRow iteration => .execute iteration .insertRow
  | .commit iteration => .execute iteration .commit
  | .rollback iteration => .rollback iteration

def Sendable (tasks : Nat → TaskPhase) (event : Replacement.Event Nat) : Prop :=
  tasks event.tid = .replacing ∨ ∃ iteration, event = .rollback iteration

theorem step_sent {event : Replacement.Event Nat} {table : Replacement.State Nat TableRow}
    (sendable : Sendable state.tasks event)
    (stepped : (Storage.database world.call).step state.table event = some table) :
    (service world).step state (sent event) = some { state with table } := by
  rcases sendable with replacing | rolledBack
  · cases event with
    | rollback iteration =>
        have rolled : state.table.rollback iteration = some table := stepped
        simp only [sent, service, Service.rollback, rolled, Option.map_some]
    | _ =>
        simp only [Replacement.Event.tid] at replacing
        simp only [sent, service, Service.execute, replacing, Statement.event, stepped,
          Option.map_some]
  · obtain ⟨iteration, rfl⟩ := rolledBack
    have rolled : state.table.rollback iteration = some table := stepped
    simp only [sent, service, Service.rollback, rolled, Option.map_some]

theorem run_sent {events : List (Replacement.Event Nat)} {table : Replacement.State Nat TableRow}
    (sendable : ∀ event ∈ events, Sendable state.tasks event)
    (ran : (Storage.database world.call).run state.table events = some table) :
    (service world).run state (events.map sent) = some { state with table } := by
  induction events generalizing state with
  | nil =>
      cases ran
      rfl
  | cons event events ih =>
      obtain ⟨next, stepped, ran⟩ := Option.bind_eq_some_iff.mp ran
      have now := step_sent (sendable event List.mem_cons_self) stepped
      rw [List.map_cons, Machine.run_cons, now, Option.bind_some]
      exact ih (fun later member => sendable later (List.mem_cons_of_mem event member)) ran

/-!
## The first import of a process
-/

/-- Nothing that an earlier process has begun is left open. -/
def Settled (state : Service) : Prop :=
  ∀ iteration < state.started, (state.table.phase iteration).Released

/-- The server can get rid of all that a killed process has left. -/
theorem settles (world : World) (state : Service) :
    ∃ events table, (service world).run state events = some { state with table } ∧
      Settled { state with table } ∧ table.commits = state.table.commits ∧
      ∀ event ∈ events, ∃ iteration, event = .rollback iteration := by
  obtain ⟨events, table, ran, only, released, _, commits⟩ :=
    Replacement.rollbacks (Storage.program world.call) (List.range state.started) state.table
  refine ⟨events.map sent, table, run_sent ?_ ran, ?_, commits, ?_⟩
  · intro event member
    exact .inr (only event member)
  · intro iteration early
    exact released iteration (List.mem_range.mpr early)
  · intro event member
    obtain ⟨transition, listed, rfl⟩ := List.mem_map.mp member
    obtain ⟨iteration, rfl⟩ := only transition listed
    exact ⟨iteration, rfl⟩

theorem Consistent.unhindered (consistent : Consistent world state) (settled : state.Settled)
    (accepted : Accepted (world.call state.started).nodes) :
    Unhindered (Storage.program world.call) state.started (world.call state.started).tableRows
      state.table := by
  have untouched (iteration : Nat) (late : state.started ≤ iteration) :=
    consistent.kept.untouched iteration (.inl (consistent.orderly.unspawned iteration late))
  have idle := untouched state.started (Nat.le_refl _)
  refine ⟨consistent.kept.sound, ?_, ?_, ?_, ?_, ?_, ?_, ?_, ?_⟩
  · simp only [Storage.program]
    rw [Storage.toColumns_eq_ok.mpr ⟨accepted.inRange, rfl⟩]
    rfl
  · exact Storage.insertedRows_eq_some.mpr ⟨accepted.inRange, accepted.storable, rfl⟩
  · have keys := Storage.map_publicKey_rowsOf (world.clock state.started)
      (world.call state.started).nodes
    exact keys ▸ accepted.distinct
  · intro other foreign
    rcases Nat.lt_or_ge other state.started with early | late
    · exact settled other early
    · rw [untouched other late]
      trivial
  · simp [idle]
  · intro active
    rw [idle] at active
    exact active.elim
  · simp [idle, Replacement.Phase.unvisited]
  · simp [idle, Replacement.Phase.unvisited]

/-- The next import has reached the database. -/
def importing (state : Service) : Service :=
  { state with
    loop := .awaiting state.started
    started := state.started + 1
    tasks := Function.update state.tasks state.started .replacing }

/-- The next import is over, and about to be logged. -/
def imported (state : Service) (table : Replacement.State Nat TableRow)
    (outcome : Importer.ImportOutcome) : Service :=
  { state with
    loop := .logging (.ok outcome)
    started := state.started + 1
    tasks := Function.update state.tasks state.started (.ended (.returned (.ok outcome)))
    table }

theorem run_starts_import {nodes : List Node} (atCheck : state.loop = .checkToken)
    (alive : state.cancelled = false) (fetched : world.fetched state.started = .ok nodes)
    (nonempty : nodes ≠ []) (inRange : Storage.InRange 0 nodes) :
    (service world).run state
        [.pollToken, .pollTick true, .spawnImport, .fetchReturns state.started] =
      some state.importing := by
  have columns : Storage.toColumns nodes = .ok (Storage.columnsOf 0 nodes) :=
    Storage.toColumns_eq_ok.mpr ⟨inRange, rfl⟩
  simp [Machine.run, service, pollToken, pollTick, spawnImport, fetchReturns, importing, setTask,
    atCheck, alive, fetched, nonempty, columns]

theorem run_ends_import {table : Replacement.State Nat TableRow}
    (committed : table.phase state.started = .committed) :
    (service world).run { state.importing with table } [.succeeds state.started, .joinImport] =
      some (state.imported table { imported := (world.call state.started).nodes.length }) := by
  simp [Machine.run, service, succeeds, joinImport, importing, imported, endTask, setTask,
    committed, Importer.TaskEnd.result]

/-- With nothing left open, the next import can be completed. -/
theorem Consistent.imports (consistent : Consistent world state) (settled : state.Settled)
    (atCheck : state.loop = .checkToken) (alive : state.cancelled = false) {nodes : List Node}
    (fetched : world.fetched state.started = .ok nodes) (nonempty : nodes ≠ [])
    (accepted : Accepted nodes) :
    ∃ events table, (service world).run state events =
        some (state.imported table { imported := nodes.length }) ∧
      table.commits = state.table.commits ++ [state.started] ∧
      table.liveRows = Storage.rowsOf (world.clock state.started) nodes ∧
      ∀ event ∈ events, ∀ reader delivered, event ≠ .deliver reader delivered := by
  have listed : (world.call state.started).nodes = nodes := by
    simp [World.call, fetched, Except.toOption]
  have idle := consistent.kept.untouched state.started
    (.inl (consistent.orderly.unspawned state.started (Nat.le_refl _)))
  have unhindered := consistent.unhindered settled (listed.symm ▸ accepted)
  obtain ⟨events, table, ran, committed, live, commits, forward, _⟩ :=
    unhindered.commits (by simp [idle])
  have sendable : ∀ event ∈ events, Sendable state.importing.tasks event := by
    intro event member
    have own := (of_decide_eq_true (forward event member)).1
    left
    rw [own]
    exact Function.update_self ..
  have starts := run_starts_import atCheck alive fetched nonempty accepted.inRange
  have works : (service world).run state.importing (events.map sent) =
      some { state.importing with table } := run_sent sendable ran
  have ends : (service world).run { state.importing with table }
      [.succeeds state.started, .joinImport] =
        some (state.imported table { imported := nodes.length }) := by
    rw [← listed]
    exact run_ends_import committed
  refine ⟨_, table, Machine.run_trans starts (Machine.run_trans works ends), commits, ?_, ?_⟩
  · rw [live, Call.tableRows, listed]
    rfl
  · intro event member reader delivered same
    subst same
    simp only [List.mem_append, List.mem_map] at member
    rcases member with first | ⟨⟨transition, _, same⟩ | last⟩
    · simp at first
    · cases transition <;> cases same
    · simp at last

end Service

/-!
## After a restart
-/

theorem Deployment.run_service {world : World} {state : Deployment} {events : List ServiceEvent}
    {final : Service} (ran : (App.service world).run state.service events = some final)
    (undelivered : ∀ event ∈ events, ∀ reader delivered, event ≠ .deliver reader delivered) :
    (deployment world).run state (events.map .service) = some { state with service := final } := by
  induction events generalizing state with
  | nil =>
      cases ran
      rfl
  | cons event events ih =>
      obtain ⟨next, stepped, ran⟩ := Option.bind_eq_some_iff.mp ran
      have allowed : state.allows event = true := by
        unfold Deployment.allows
        split
        · rename_i reader delivered
          exact absurd rfl (undelivered _ List.mem_cons_self reader delivered)
        · rfl
      have now : (deployment world).step state (.service event) =
          some { state with service := next } := by
        simp only [deployment, allowed, if_true, stepped, Option.map_some]
      rw [List.map_cons, Machine.run_cons, now, Option.bind_some]
      exact ih ran fun later member => undelivered later (List.mem_cons_of_mem event member)

/-- Wherever a run has got to, a new process can complete its first import if
the list it fetches suits the table, and readers then get that list. -/
theorem restart_recovers (world : World) {events : List DeploymentEvent} {final : Deployment}
    (ran : (deployment world).run {} events = some final) {nodes : List Node}
    (fetched : world.fetched final.service.started = .ok nodes) (nonempty : nodes ≠ [])
    (accepted : Accepted nodes) :
    ∃ (recovery : List ServiceEvent) (last : Deployment),
      (deployment world).run final (.restart :: recovery.map .service) = some last ∧
      last.service.loop = .logging (.ok { imported := nodes.length }) ∧
      last.service.table.commits =
        final.service.table.commits ++ [final.service.started] ∧
      ∀ delivered, OrderedByRank last.service.table.liveRows delivered →
        Storage.listNodes (.ok delivered) = .ok nodes := by
  have restarted := (durable_of_run ran).restart.consistent
  obtain ⟨rollbacks, table, settles, settled, commits, only⟩ :=
    Service.settles world final.service.restart
  have ready := Machine.run_preserves
    (fun _ _ _ consistent stepped => Service.Consistent.step consistent stepped) restarted settles
  obtain ⟨imports, last, imported, committed, live, undelivered⟩ :=
    ready.imports settled rfl rfl fetched nonempty accepted
  have recovers := Machine.run_trans settles imported
  refine ⟨rollbacks ++ imports, ⟨Service.imported { final.service.restart with table } last
    { imported := nodes.length }, final.restarted.orphaned⟩, ?_, rfl, ?_, ?_⟩
  · rw [Machine.run_cons]
    refine Deployment.run_service recovers ?_
    intro event member reader delivered
    rcases List.mem_append.mp member with rollback | own
    · obtain ⟨iteration, rfl⟩ := only event rollback
      nofun
    · exact undelivered event own reader delivered
  · exact committed.trans (congrArg (· ++ [final.service.started]) commits)
  · intro delivered ordered
    have rows : (Service.imported { final.service.restart with table } last
        { imported := nodes.length }).table.liveRows =
          Storage.rowsOf (world.clock final.service.started) nodes := live
    rw [rows] at ordered
    have numbered : Storage.Numbered (Storage.rowsOf (world.clock final.service.started) nodes) :=
      Storage.numbered_rowsOf accepted.inRange.length_le
    rw [numbered.delivered_eq (List.Perm.refl _) ordered]
    have listed : (world.call final.service.started).nodes = nodes := by
      simp [World.call, fetched, Except.toOption]
    exact Storage.listNodes_rowsOf accepted.inRange
      (listed ▸ call_wholeMicros final.service.started)

theorem restart_recovers_sample : ∃ (recovery : List ServiceEvent) (last : Deployment),
    (deployment sampleWorld).run {}
      (killedInside ++ .restart :: recovery.map .service) = some last ∧
      last.service.table.commits = [0, 2] := by
  have killed : ∃ final, (deployment sampleWorld).run {} killedInside = some final ∧
      final.service.started = 2 ∧ final.service.table.commits = [0] := ⟨_, rfl, rfl, rfl⟩
  obtain ⟨final, ran, started, commits⟩ := killed
  have fetched : sampleWorld.fetched final.service.started = .ok [Domain.sampleNode "03cd"] := by
    rw [started]
    rfl
  obtain ⟨recovery, last, recovers, _, committed, _⟩ := restart_recovers sampleWorld ran fetched
    (by simp) ⟨by unfold Storage.InRange; decide, by decide, by decide⟩
  rw [commits, started] at committed
  exact ⟨recovery, last, Machine.run_trans ran recovers, committed⟩

end BipaNodes.App
