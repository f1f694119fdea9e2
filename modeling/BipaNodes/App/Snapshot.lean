import BipaNodes.App.Shutdown
import BipaNodes.Importer.RunOnceProperties

/-! Every reader of the running service sees one whole import, whatever the
iterations come to. -/

set_option autoImplicit false

namespace BipaNodes.App

open Domain (Node)
open Importer (TaskEnd TaskPhase)
open Replacement (Covered Sound)
open Storage (Call OrderedByRank StorageError TableRow)

variable {world : World}

/-!
## The last import
-/

theorem fetched_of_nonempty {iteration : Nat} (nonempty : (world.call iteration).nodes ≠ []) :
    world.fetched iteration = .ok (world.call iteration).nodes := by
  unfold World.call at nonempty ⊢
  cases fetched : world.fetched iteration with
  | error error => simp [fetched, Except.toOption] at nonempty
  | ok nodes => rfl

theorem call_wholeMicros (iteration : Nat) :
    ∀ node ∈ (world.call iteration).nodes, Storage.WholeMicros node := by
  unfold World.call World.fetched
  cases world.answers iteration with
  | error error => simp [Except.map, Except.toOption]
  | ok records => exact Importer.parseRecords_wholeMicros

def Holds (world : World) (commits : List Nat) (rows : List TableRow) : Prop :=
  match commits.getLast? with
  | none => rows = []
  | some iteration =>
      rows = (world.call iteration).tableRows ∧ (world.call iteration).nodes ≠ [] ∧
        Storage.InRange 0 (world.call iteration).nodes ∧ (rows.map TableRow.publicKey).Nodup

/-- The list returned by the fetch of the last import, or none before it. -/
def LastImport (world : World) (commits : List Nat) (nodes : List Node) : Prop :=
  match commits.getLast? with
  | none => nodes = []
  | some iteration => world.fetched iteration = .ok nodes ∧ nodes ≠ []

section

variable {commits : List Nat} {rows delivered : List TableRow}

theorem Holds.numbered (holds : Holds world commits rows) : Storage.Numbered rows := by
  unfold Holds at holds
  split at holds
  · rw [holds]
    rfl
  · obtain ⟨rfl, _, inRange, _⟩ := holds
    exact Storage.numbered_rowsOf inRange.length_le

theorem Holds.listNodes (holds : Holds world commits rows)
    (ordered : OrderedByRank rows delivered) :
    ∃ nodes, Storage.listNodes (.ok delivered) = .ok nodes ∧ LastImport world commits nodes := by
  rw [holds.numbered.delivered_eq (List.Perm.refl rows) ordered]
  unfold Holds at holds
  unfold LastImport
  split at holds
  · rename_i before
    rw [holds]
    exact ⟨[], rfl, rfl⟩
  · rename_i iteration last
    obtain ⟨rfl, nonempty, inRange, _⟩ := holds
    exact ⟨_, Storage.listNodes_rowsOf inRange (call_wholeMicros iteration),
      fetched_of_nonempty nonempty, nonempty⟩

theorem Holds.distinct (holds : Holds world commits rows) :
    (rows.map TableRow.publicKey).Nodup := by
  unfold Holds at holds
  split at holds
  · rw [holds]
    exact List.nodup_nil
  · exact holds.2.2.2

theorem Holds.capacity (holds : Holds world commits rows) {row : TableRow} (member : row ∈ rows) :
    0 ≤ row.capacitySats.toInt ∧ ∃ sats, Storage.capacityFromDb row.capacitySats = .ok sats := by
  unfold Holds at holds
  split at holds
  · rw [holds] at member
    cases member
  · obtain ⟨rfl, _, inRange, _⟩ := holds
    obtain ⟨index, inside, rfl⟩ := List.mem_iff_getElem.mp member
    rw [Call.tableRows, Storage.length_rowsOf] at inside
    have fits := inRange.1 _ (List.getElem_mem inside)
    simp only [Call.tableRows, Storage.rowsOf, List.getElem_mapIdx, Storage.rowOf]
    rw [Storage.toInt_ofNat_capacity fits]
    exact ⟨Int.natCast_nonneg _, _, Storage.capacityFromDb_toDb fits⟩

theorem Holds.ne_nil_iff (holds : Holds world commits rows) : rows ≠ [] ↔ commits ≠ [] := by
  unfold Holds at holds
  split at holds
  · rename_i last
    rw [holds, List.getLast?_eq_none_iff.mp last]
    exact iff_of_false (fun absent => absent rfl) fun absent => absent rfl
  · rename_i iteration last
    obtain ⟨rfl, nonempty, _⟩ := holds
    refine iff_of_true (mt Storage.Call.tableRows_eq_nil.mp nonempty) ?_
    intro empty
    rw [empty] at last
    cases last

end

/-!
## Invariant of the table
-/

/-- What ties the table to the tasks: only a task under way can commit, and its
DELETE, once it has started, has seen every live row. -/
structure Kept (world : World) (tasks : Nat → TaskPhase)
    (table : Replacement.State Nat TableRow) : Prop where
  sound : Sound (Storage.program world.call) table
  untouched : ∀ iteration, tasks iteration = .unspawned ∨ tasks iteration = .fetching →
    table.phase iteration = .idle
  nonempty : ∀ iteration, tasks iteration = .replacing → (world.call iteration).nodes ≠ []
  covered : ∀ iteration, tasks iteration = .replacing → (table.phase iteration).Active →
    table.phase iteration ≠ .committed → Covered table iteration
  holds : Holds world table.commits table.liveRows

section

variable {tasks : Nat → TaskPhase} {table next : Replacement.State Nat TableRow}

theorem Kept.initial : Kept world (fun _ => .unspawned) (Replacement.initial []) where
  sound := Sound.initial []
  untouched := fun _ _ => rfl
  nonempty := by
    intro iteration replacing
    cases replacing
  covered := by
    intro iteration replacing
    cases replacing
  holds := rfl

theorem Kept.setTask (kept : Kept world tasks table) {iteration : Nat} {phase : TaskPhase}
    (fresh : phase = .unspawned ∨ phase = .fetching ∨ phase = .replacing →
      table.phase iteration = .idle)
    (nonempty : phase = .replacing → (world.call iteration).nodes ≠ []) :
    Kept world (Function.update tasks iteration phase) table := by
  refine ⟨kept.sound, ?_, ?_, ?_, kept.holds⟩
  · intro other early
    by_cases own : other = iteration
    · rw [own, Function.update_self] at early
      rw [own]
      exact fresh (early.imp_right .inl)
    · rw [Function.update_of_ne own] at early
      exact kept.untouched other early
  · intro other replacing
    by_cases own : other = iteration
    · rw [own, Function.update_self] at replacing
      rw [own]
      exact nonempty replacing
    · rw [Function.update_of_ne own] at replacing
      exact kept.nonempty other replacing
  · intro other replacing active
    by_cases own : other = iteration
    · rw [own, Function.update_self] at replacing
      rw [own, fresh (.inr (.inr replacing))] at active
      exact active.elim
    · rw [Function.update_of_ne own] at replacing
      exact kept.covered other replacing active

theorem Kept.quiet (kept : Kept world tasks table) {event : Replacement.Event Nat}
    (stepped : (Storage.database world.call).step table event = some next)
    (noCommit : ∀ iteration, event ≠ .commit iteration)
    (underWay : tasks event.tid ≠ .unspawned ∧ tasks event.tid ≠ .fetching) :
    Kept world tasks next := by
  have quiet := Replacement.quiet_step stepped noCommit
  refine ⟨kept.sound.step stepped, ?_, kept.nonempty, ?_, ?_⟩
  · intro iteration early
    have foreign : iteration ≠ event.tid := by
      intro own
      rw [own] at early
      rcases early with unspawned | fetching
      · exact underWay.1 unspawned
      · exact underWay.2 fetching
    rw [(Replacement.frame_step stepped foreign).1]
    exact kept.untouched iteration early
  · intro iteration replacing active _
    by_cases deletes : event = .delete iteration
    · subst deletes
      exact Replacement.covered_delete kept.sound stepped
    · have wasActive := Replacement.active_step stepped deletes active
      refine (kept.covered iteration replacing wasActive ?_).of_quiet quiet
        (Replacement.seen_step stepped deletes)
      intro committed
      have listed := (kept.sound.mem_commits_iff iteration).mpr committed
      rw [← quiet.commits, (kept.sound.step stepped).mem_commits_iff] at listed
      contradiction
  · rw [quiet.commits, quiet.liveRows]
    exact kept.holds

theorem Kept.commit (kept : Kept world tasks table) {iteration : Nat}
    (replacing : tasks iteration = .replacing)
    (alone : ∀ other, tasks other = .replacing → other = iteration)
    (stepped : table.commit iteration = some next) : Kept world tasks next := by
  have phase := (Replacement.State.commit_eq_some.mp stepped).1
  have covered : Covered table iteration :=
    kept.covered iteration replacing (by rw [phase]; trivial) (by rw [phase]; simp)
  have sound := kept.sound.commit stepped
  have planned := Replacement.liveRows_commit_of_covered kept.sound stepped covered
  have commits := Replacement.commits_commit stepped
  obtain ⟨inRange, _, rows⟩ := Storage.insertedRows_eq_some.mp planned
  refine ⟨sound, ?_, kept.nonempty, ?_, ?_⟩
  · intro other early
    have foreign : other ≠ iteration := by
      intro own
      rw [own, replacing] at early
      simp at early
    have stepped' : (Storage.database world.call).step table (.commit iteration) = some next :=
      stepped
    rw [(Replacement.frame_step stepped' foreign).1]
    exact kept.untouched other early
  · intro other otherReplacing _ uncommitted
    have listed : iteration ∈ next.commits := by
      rw [commits]
      exact List.mem_append_right _ List.mem_cons_self
    rw [alone other otherReplacing] at uncommitted
    exact absurd ((sound.mem_commits_iff iteration).mp listed) uncommitted
  · unfold Holds
    rw [commits, List.getLast?_concat]
    exact ⟨rows, kept.nonempty iteration replacing, inRange,
      Replacement.keys_commit_of_covered kept.sound stepped covered⟩

end

/-!
## Readers
-/

def ReaderKept (world : World) (commits : List Nat) : Reader → Prop
  | .idle => True
  | .selected rows seen => Holds world seen rows ∧ seen <+: commits
  | .answered (.ok nodes) seen => LastImport world seen nodes ∧ seen <+: commits
  | .answered (.error error) _ => ∀ field value, error ≠ .outOfRange field value

theorem ReaderKept.later {commits later : List Nat} {reader : Reader}
    (kept : ReaderKept world commits reader) (grown : commits <+: later) :
    ReaderKept world later reader := by
  match reader with
  | .idle => trivial
  | .selected rows seen => exact ⟨kept.1, kept.2.trans grown⟩
  | .answered (.ok nodes) seen => exact ⟨kept.1, kept.2.trans grown⟩
  | .answered (.error error) seen => exact kept

theorem ReaderKept.deliver {commits seen : List Nat} {rows delivered : List TableRow}
    (kept : ReaderKept world commits (.selected rows seen))
    (ordered : OrderedByRank rows delivered) :
    ReaderKept world commits (.answered (Storage.listNodes (.ok delivered)) seen) := by
  obtain ⟨nodes, listed, last⟩ := kept.1.listNodes ordered
  rw [listed]
  exact ⟨last, kept.2⟩

/-!
## Invariant of the service
-/

namespace Service

structure Consistent (world : World) (state : Service) : Prop where
  orderly : state.Orderly
  kept : Kept world state.tasks state.table
  readersKept : ∀ reader, ReaderKept world state.table.commits (state.readers reader)

variable {state next : Service}

theorem Consistent.initial : Consistent world {} where
  orderly := Orderly.initial
  kept := Kept.initial
  readersKept := fun _ => trivial

theorem Orderly.alone (orderly : state.Orderly) {iteration : Nat}
    (replacing : state.tasks iteration = .replacing) (other : Nat)
    (otherReplacing : state.tasks other = .replacing) : other = iteration := by
  have awaited := orderly.awaited iteration (by rw [replacing]; rfl)
  rw [orderly.awaited other (by rw [otherReplacing]; rfl)] at awaited
  exact Importer.LoopPhase.awaiting.inj awaited

theorem Consistent.endTask (consistent : Consistent world state) {iteration : Nat}
    (taskEnd : TaskEnd) (stepped : (state.setTask iteration (.ended taskEnd)).Orderly) :
    Consistent world (state.setTask iteration (.ended taskEnd)) :=
  ⟨stepped, consistent.kept.setTask (by simp) (by simp), consistent.readersKept⟩

theorem Consistent.spawnImport (consistent : Consistent world state)
    (stepped : state.spawnImport = some next) : Consistent world next := by
  have orderly := consistent.orderly.spawnImport stepped
  unfold Service.spawnImport at stepped
  split at stepped
  · cases stepped
    refine ⟨orderly, consistent.kept.setTask (fun _ => ?_) (by simp), consistent.readersKept⟩
    exact consistent.kept.untouched _
      (.inl (consistent.orderly.unspawned state.started (Nat.le_refl _)))
  · cases stepped

theorem Consistent.execute (consistent : Consistent world state) {iteration : Nat}
    {statement : Statement} {table : Replacement.State Nat TableRow}
    (replacing : state.tasks iteration = .replacing)
    (executed : (Storage.database world.call).step state.table (statement.event iteration) =
      some table) : Consistent world { state with table } := by
  refine ⟨consistent.orderly.of_frame table state.readers, ?_, fun reader =>
    (consistent.readersKept reader).later (Replacement.commits_prefix_step executed)⟩
  by_cases isCommit : statement = .commit
  · subst isCommit
    exact consistent.kept.commit replacing (consistent.orderly.alone replacing) executed
  · have noCommit : ∀ other, statement.event iteration ≠ .commit other := by
      intro other
      cases statement <;> simp [Statement.event] at isCommit ⊢
    have own : (statement.event iteration).tid = iteration := by cases statement <;> rfl
    refine consistent.kept.quiet executed noCommit ?_
    rw [own, replacing]
    simp

theorem Consistent.rollback (consistent : Consistent world state) {iteration : Nat}
    {table : Replacement.State Nat TableRow}
    (rolledBack : state.table.rollback iteration = some table) :
    Consistent world { state with table } := by
  have executed : (Storage.database world.call).step state.table (.rollback iteration) =
      some table := rolledBack
  have touched : state.table.phase iteration ≠ .idle := by
    intro idle
    simp [Replacement.State.rollback, idle] at rolledBack
  refine ⟨consistent.orderly.of_frame table state.readers,
    consistent.kept.quiet executed (by simp) ⟨?_, ?_⟩, fun reader =>
      (consistent.readersKept reader).later (Replacement.commits_prefix_step executed)⟩
  · intro unspawned
    exact touched (consistent.kept.untouched iteration (.inl unspawned))
  · intro fetching
    exact touched (consistent.kept.untouched iteration (.inr fetching))

theorem Consistent.setReader (consistent : Consistent world state) {reader : Nat} {phase : Reader}
    (kept : ReaderKept world state.table.commits phase) :
    Consistent world (state.setReader reader phase) := by
  refine ⟨consistent.orderly.of_frame state.table _, consistent.kept, fun other => ?_⟩
  simp only [Service.setReader]
  by_cases own : other = reader
  · rw [own, Function.update_self]
    exact kept
  · rw [Function.update_of_ne own]
    exact consistent.readersKept other

theorem Consistent.step (consistent : Consistent world state) {event : ServiceEvent}
    (stepped : (service world).step state event = some next) : Consistent world next := by
  have orderly := consistent.orderly.step stepped
  cases step_effect stepped with
  | control _ _ tasks table readers =>
      refine ⟨orderly, ?_, ?_⟩
      · rw [tasks, table]
        exact consistent.kept
      · rw [table, readers]
        exact consistent.readersKept
  | spawnImport spawned => exact consistent.spawnImport spawned
  | @replaces iteration fetching nonempty =>
      have idle := consistent.kept.untouched iteration (.inr fetching)
      exact ⟨orderly, consistent.kept.setTask (fun _ => idle) (fun _ => nonempty),
        consistent.readersKept⟩
  | ends _ taskEnd => exact consistent.endTask taskEnd orderly
  | executes replacing executed => exact consistent.execute replacing executed
  | rollsBack rolledBack => exact consistent.rollback rolledBack
  | selects reader => exact consistent.setReader ⟨consistent.kept.holds, List.prefix_refl _⟩
  | @delivers reader rows delivered seen selected ordered =>
      have kept := consistent.readersKept reader
      rw [selected] at kept
      exact consistent.setReader (kept.deliver ordered)
  | failsRead reader error seen =>
      refine consistent.setReader ?_
      intro field value same
      cases same

/-!
## What readers get
-/

theorem table_step {event : ServiceEvent}
    (stepped : (service world).step state event = some next) :
    next.table = state.table ∨
      ∃ transition, (Storage.database world.call).step state.table transition =
        some next.table := by
  cases step_effect stepped with
  | control _ _ _ table => exact .inl table
  | spawnImport spawned =>
      unfold Service.spawnImport at spawned
      split at spawned
      · cases spawned
        exact .inl rfl
      · cases spawned
  | executes _ executed => exact .inr ⟨_, executed⟩
  | @rollsBack iteration _ rolledBack => exact .inr ⟨.rollback iteration, rolledBack⟩
  | _ => exact .inl rfl

theorem commits_step {event : ServiceEvent}
    (stepped : (service world).step state event = some next) :
    state.table.commits <+: next.table.commits := by
  rcases table_step stepped with same | changed
  · exact same ▸ List.prefix_rfl
  · obtain ⟨transition, executed⟩ := changed
    exact Replacement.commits_prefix_step executed

structure SnapshotIntegrity (world : World) (before : Service) (event : ServiceEvent)
    (after : Service) : Prop where
  /-- A SELECT sees the table and the commits as it starts. -/
  selects : ∀ reader, event = .select reader →
    after.readers reader = .selected before.table.liveRows before.table.commits
  /-- A successful read is the whole last import of its SELECT, or empty before
  the first. -/
  reads : ∀ reader nodes seen, after.readers reader = .answered (.ok nodes) seen →
    LastImport world seen nodes ∧ seen <+: after.table.commits
  reads_in_range : ∀ reader field value seen,
    after.readers reader ≠ .answered (.error (.outOfRange field value)) seen
  keys_distinct : (after.table.liveRows.map TableRow.publicKey).Nodup
  ranks_numbered : Storage.Numbered after.table.liveRows
  capacities_fit : ∀ row ∈ after.table.liveRows, 0 ≤ row.capacitySats.toInt ∧
    ∃ sats, Storage.capacityFromDb row.capacitySats = .ok sats
  filled_iff : after.table.liveRows ≠ [] ↔ after.table.commits ≠ []
  stays_filled : before.table.liveRows ≠ [] → after.table.liveRows ≠ []

theorem Consistent.snapshotIntegrity (before : Consistent world state) {event : ServiceEvent}
    (stepped : (service world).step state event = some next) :
    SnapshotIntegrity world state event next := by
  have after := before.step stepped
  refine ⟨?_, ?_, ?_, after.kept.holds.distinct, after.kept.holds.numbered,
    fun _ member => after.kept.holds.capacity member, after.kept.holds.ne_nil_iff, ?_⟩
  · intro reader selects
    subst selects
    simp only [service, Service.select] at stepped
    split at stepped
    · cases stepped
      simp only [Service.setReader, Function.update_self]
    · cases stepped
  · intro reader nodes seen answered
    have kept := after.readersKept reader
    rw [answered] at kept
    exact kept
  · intro reader field value seen answered
    have kept := after.readersKept reader
    rw [answered] at kept
    exact kept field value rfl
  · intro filled
    have present := before.kept.holds.ne_nil_iff.mp filled
    refine after.kept.holds.ne_nil_iff.mpr ?_
    intro empty
    have grown := commits_step stepped
    rw [empty] at grown
    exact present (List.prefix_nil.mp grown)

end Service

/-- From the empty table on, every step of every run keeps snapshots whole. -/
theorem snapshots_whole (world : World) (events : List ServiceEvent) :
    (service world).EveryStep (Service.SnapshotIntegrity world) {} events := by
  apply @Machine.everyStep_of_invariant _ _ _ (Service.Consistent world)
  · intro before event after consistent stepped
    exact consistent.step stepped
  · intro before event after consistent stepped
    exact consistent.snapshotIntegrity stepped
  · exact Service.Consistent.initial

end BipaNodes.App
