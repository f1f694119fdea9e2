import BipaNodes.Lib.ReplacementCommits
import BipaNodes.Storage.PostgresProperties

/-!
# Concurrent imports

Any number of `replace_all` calls on one database, as interleaved transactions
on the row versions of `nodes`.
-/

set_option autoImplicit false

namespace BipaNodes.Storage

open Domain (Node sampleNode)
open Replacement (Covered Event HoldsOneList Numbering Program Sound State Unmixed)

/-- One `replace_all`; `importedAt` is the `now()` of its transaction. -/
structure Call where
  nodes : List Node
  importedAt : Int

/-- What the INSERT of a call is about to write, unless a value does not fit. -/
def Call.insertedRows (call : Call) : Option (List TableRow) :=
  (toColumns call.nodes).toOption.bind fun columns => (columns.toRows call.importedAt).toOption

def Call.tableRows (call : Call) : List TableRow := rowsOf call.importedAt call.nodes

/-- A transaction is opened once the columns are built. -/
def program {Tid : Type} (calls : Tid → Call) : Program Tid TableRow String where
  key := TableRow.publicKey
  opens tid := (toColumns (calls tid).nodes).isOk
  rows tid := (calls tid).insertedRows

def database {Tid : Type} [DecidableEq Tid] (calls : Tid → Call) :
    Machine (State Tid TableRow) (Event Tid) :=
  Replacement.machine (program calls)

theorem toOption_eq_some {Error Value : Type} {result : Except Error Value} {value : Value} :
    result.toOption = some value ↔ result = .ok value := by
  cases result <;> simp [Except.toOption]

theorem insertedRows_eq_some {call : Call} {rows : List TableRow} :
    call.insertedRows = some rows ↔
      InRange 0 call.nodes ∧ (∀ node ∈ call.nodes, Storable node) ∧ rows = call.tableRows := by
  unfold Call.insertedRows
  rw [Option.bind_eq_some_iff]
  constructor
  · intro inserted
    obtain ⟨columns, built, bound⟩ := inserted
    obtain ⟨inRange, rfl⟩ := toColumns_eq_ok.mp (toOption_eq_some.mp built)
    obtain ⟨storable, same⟩ := (toRows_eq_ok inRange.1).mp (toOption_eq_some.mp bound)
    exact ⟨inRange, storable, same⟩
  · intro accepted
    obtain ⟨inRange, storable, same⟩ := accepted
    exact ⟨columnsOf 0 call.nodes, toOption_eq_some.mpr (toColumns_eq_ok.mpr ⟨inRange, rfl⟩),
      toOption_eq_some.mpr ((toRows_eq_ok inRange.1).mpr ⟨storable, same⟩)⟩

theorem Call.tableRows_eq_nil {call : Call} : call.tableRows = [] ↔ call.nodes = [] := by
  rw [← List.length_eq_zero_iff, Call.tableRows, length_rowsOf, List.length_eq_zero_iff]

section

variable {Tid : Type} {calls : Tid → Call}

theorem program_numbering : Numbering (program calls) fun row => row.rank.toInt.toNat := by
  intro tid rows planned
  obtain ⟨inRange, _, rfl⟩ := insertedRows_eq_some.mp planned
  have numbered := @numbered_rowsOf (calls tid).importedAt _ inRange.length_le
  have ranks := congrArg (List.map Int.toNat) numbered
  rw [List.map_map, List.map_map] at ranks
  simpa [Call.tableRows, Function.comp_def] using ranks

variable [DecidableEq Tid] {state next : State Tid TableRow} {tid : Tid}

theorem rows_of_committed (sound : Sound (program calls) state) (committed : tid ∈ state.commits) :
    (program calls).rows tid = some (calls tid).tableRows := by
  have wrote := sound.wrote tid
  rw [(sound.mem_commits_iff tid).mp committed] at wrote
  obtain ⟨_, _, same⟩ := insertedRows_eq_some.mp wrote
  rw [← same]
  exact wrote

/-- The table is exactly the list of a committed call, with ranks that leave
`SELECT .. ORDER BY rank` no choice. -/
def HoldsOneImport (calls : Tid → Call) (state : State Tid TableRow) : Prop :=
  ∃ tid ∈ state.commits, state.liveRows = (calls tid).tableRows ∧
    ∀ delivered, OrderedByRank state.liveRows delivered → delivered = (calls tid).tableRows

theorem holdsOneImport_iff (sound : Sound (program calls) state) :
    HoldsOneImport calls state ↔ HoldsOneList (program calls) state := by
  refine exists_congr fun tid => and_congr_right fun committed => ?_
  have planned := rows_of_committed sound committed
  obtain ⟨inRange, _, _⟩ := insertedRows_eq_some.mp planned
  rw [planned, Option.some.injEq]
  constructor
  · intro held
    exact held.1.symm
  · intro same
    refine ⟨same.symm, ?_⟩
    intro delivered ordered
    rw [← same] at ordered
    exact (numbered_rowsOf inRange.length_le).delivered_eq (List.Perm.refl _) ordered

/-- The call is empty, or its DELETE has seen all that it is to replace. -/
def ReplacesAll (calls : Tid → Call) (before : State Tid TableRow) (tid : Tid) : Prop :=
  (calls tid).nodes = [] ∨ Covered before tid

theorem replacesAll_iff (sound : Sound (program calls) state)
    (stepped : state.commit tid = some next) :
    ReplacesAll calls state tid ↔ Unmixed (program calls) state tid := by
  have committed : tid ∈ next.commits := by
    rw [Replacement.commits_commit stepped]
    exact List.mem_append_right _ List.mem_cons_self
  unfold ReplacesAll Unmixed
  rw [rows_of_committed (sound.commit stepped) committed, Option.some.injEq,
    Call.tableRows_eq_nil]

end

/-- The table holds one import after every commit of exactly those runs in
which no committing call leaves rows that came after its DELETE had started. -/
theorem concurrent_imports_atomic_iff {Tid : Type} [DecidableEq Tid] (calls : Tid → Call)
    (table : List TableRow) (events : List (Event Tid)) :
    (database calls).EveryStep
        (fun _ event after => ∀ tid, event = .commit tid → HoldsOneImport calls after)
        (Replacement.initial table) events ↔
      (database calls).EveryStep
        (fun before event _ => ∀ tid, event = .commit tid → ReplacesAll calls before tid)
        (Replacement.initial table) events := by
  have sound : Sound (program calls) (Replacement.initial table) := Sound.initial table
  have left := @Machine.everyStep_iff _ _ (database calls) (Sound (program calls))
    (fun _ event after => ∀ tid, event = .commit tid → HoldsOneImport calls after)
    (fun _ event after => ∀ tid, event = .commit tid → HoldsOneList (program calls) after)
    (fun _ _ _ sound stepped => forall_congr' fun _ => forall_congr' fun _ =>
      holdsOneImport_iff (sound.step stepped))
    (fun _ _ _ sound stepped _ => sound.step stepped) _ events sound
  have right := @Machine.everyStep_iff _ _ (database calls) (Sound (program calls))
    (fun before event _ => ∀ tid, event = .commit tid → ReplacesAll calls before tid)
    (fun before event _ => ∀ tid, event = .commit tid → Unmixed (program calls) before tid)
    (by
      intro before event after sound stepped
      refine forall_congr' fun tid => forall_congr' fun isCommit => ?_
      subst isCommit
      exact replacesAll_iff sound stepped)
    (fun _ _ _ sound stepped _ => sound.step stepped) _ events sound
  rw [left, right]
  exact Replacement.everyCommit_holdsOneList_iff program_numbering table events

/-!
## One call alone
-/

/-- A call alone on the database: before its COMMIT the table is as it was, and
its DELETE, once started, has seen all of it. -/
structure Alone (call : Call) (table : List TableRow) (state : State Unit TableRow) : Prop where
  sound : Sound (program fun _ : Unit => call) state
  covered : (state.phase ()).Active → state.commits = [] → Covered state ()
  unchanged : state.commits = [] → state.liveRows = table
  replaced : state.commits ≠ [] → Accepted call.nodes ∧ state.liveRows = call.tableRows

theorem liveRows_initial {Tid : Type} (table : List TableRow) :
    (Replacement.initial table : State Tid TableRow).liveRows = table := by
  have live (row : TableRow) : ReadCommitted.Version.Live
      (Replacement.initial table : State Tid TableRow).status { row } := by
    simp [ReadCommitted.Version.Live, ReadCommitted.Version.Settled, ReadCommitted.Version.Dead]
  unfold State.liveRows ReadCommitted.liveRows
  rw [List.filter_eq_self.mpr]
  · simp [Replacement.initial, Function.comp_def]
  · intro version member
    obtain ⟨row, _, rfl⟩ := List.mem_map.mp member
    exact decide_eq_true (live row)

theorem Alone.step {call : Call} {table : List TableRow} {state next : State Unit TableRow}
    {event : Event Unit} (alone : Alone call table state)
    (stepped : (database fun _ => call).step state event = some next) : Alone call table next := by
  have sound := alone.sound.step stepped
  by_cases isCommit : ∃ tid, event = .commit tid
  · obtain ⟨tid, rfl⟩ := isCommit
    have committing := (Replacement.State.commit_eq_some.mp stepped).1
    have commits := Replacement.commits_commit stepped
    have noneBefore : state.commits = [] := by
      by_contra someBefore
      obtain ⟨other, listed⟩ := List.exists_mem_of_ne_nil _ someBefore
      have done := (alone.sound.mem_commits_iff other).mp listed
      rw [committing] at done
      cases done
    have covered := alone.covered (by rw [committing]; trivial) noneBefore
    have planned := Replacement.liveRows_commit_of_covered alone.sound stepped covered
    have distinct := Replacement.keys_commit_of_covered alone.sound stepped covered
    obtain ⟨inRange, storable, rows⟩ := insertedRows_eq_some.mp planned
    refine ⟨sound, by simp [commits], by simp [commits], fun _ => ⟨⟨inRange, storable, ?_⟩, rows⟩⟩
    rw [rows] at distinct
    rw [← map_publicKey_rowsOf call.importedAt]
    exact distinct
  · have quiet := Replacement.quiet_step stepped (not_exists.mp isCommit)
    refine ⟨sound, ?_, ?_, ?_⟩
    · intro active uncommitted
      by_cases deletes : event = .delete ()
      · subst deletes
        exact Replacement.covered_delete alone.sound stepped
      · rw [quiet.commits] at uncommitted
        exact (alone.covered (Replacement.active_step stepped deletes active) uncommitted).of_quiet
          quiet (Replacement.seen_step stepped deletes)
    · rw [quiet.commits, quiet.liveRows]
      exact alone.unchanged
    · rw [quiet.commits, quiet.liveRows]
      exact alone.replaced

/-- Without other calls, the transaction does what `replaceAll` says: it leaves
the table alone, or commits and succeeds. -/
theorem alone_refines_replaceAll {call : Call} {table : List TableRow}
    {events : List (Event Unit)} {final : State Unit TableRow}
    (ran : (database fun _ => call).run (Replacement.initial table) events = some final) :
    final.liveRows = table ∨
      replaceAll .responsive call.importedAt table call.nodes =
        (.ok call.nodes.length, final.liveRows) := by
  have initially : Alone call table (Replacement.initial table) :=
    ⟨Sound.initial table, fun active => active.elim, fun _ => liveRows_initial table,
      fun absent => absurd rfl absent⟩
  have alone := Machine.run_preserves (fun _ _ _ => Alone.step) initially ran
  by_cases uncommitted : final.commits = []
  · exact .inl (alone.unchanged uncommitted)
  · obtain ⟨accepted, rows⟩ := alone.replaced uncommitted
    right
    rw [replaceAll_of_reachesCommit ⟨⟨rfl, rfl, rfl⟩, accepted⟩, rows]
    rfl

/-!
## Two calls that mix
-/

def replicas : Bool → Call
  | false => { nodes := [sampleNode "02ab"], importedAt := 0 }
  | true => { nodes := [sampleNode "03cd"], importedAt := 0 }

/-- Both DELETEs start on the empty table, before either replica commits. -/
def crossedImports : List (Event Bool) :=
  [.begin false, .begin true, .delete false, .delete true, .insert false, .insertRow false,
    .insert true, .insertRow true, .commit false, .commit true]

/-- First imports of two replicas leave the rows of both in the table. -/
theorem crossed_imports_mix :
    ¬ ∀ (calls : Bool → Call) (table : List TableRow) (events : List (Event Bool)),
      (database calls).EveryStep
        (fun _ event after => ∀ tid, event = .commit tid → HoldsOneImport calls after)
        (Replacement.initial table) events := by
  intro atomic
  have every := atomic replicas [] crossedImports
  have deletes := (every _ rfl).2 _ rfl |>.2 _ rfl |>.2 _ rfl |>.2
  have inserts := (deletes _ rfl).2 _ rfl |>.2 _ rfl |>.2 _ rfl |>.2
  have last := (inserts _ rfl).2 _ rfl |>.1
  obtain ⟨tid, _, same, _⟩ := last true rfl
  have lengths := congrArg List.length same
  cases tid with
  | false => exact absurd lengths (by decide)
  | true => exact absurd lengths (by decide)

end BipaNodes.Storage
