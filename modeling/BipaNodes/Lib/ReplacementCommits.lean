import BipaNodes.Lib.ReplacementProperties
import Mathlib.Data.List.Nodup

/-! The committed table is one transaction's list after every commit, exactly
if no commit leaves live rows that its DELETE has not seen. -/

set_option autoImplicit false

open ReadCommitted

namespace Replacement

variable {Tid Row Key : Type} {state next : State Tid Row} {tid : Tid}

namespace State

def origins (state : State Tid Row) : List (Option Tid × Row) :=
  ReadCommitted.origins state.status state.heap

theorem map_snd_origins (state : State Tid Row) : state.origins.map Prod.snd = state.liveRows :=
  ReadCommitted.map_snd_origins state.status state.heap

theorem mem_origins {origin : Option Tid} {row : Row} : (origin, row) ∈ state.origins ↔
    ∃ version ∈ state.heap, version.Live state.status ∧ version.writer = origin ∧
      version.row = row := by
  simp [origins, ReadCommitted.origins, and_assoc]

end State

/-!
## Steps that leave the committed table alone
-/

structure Quiet (state next : State Tid Row) : Prop where
  origins : next.origins = state.origins
  commits : next.commits = state.commits
  /-- No position comes to life. -/
  live : ∀ (position : Nat) (version : Version Tid Row), next.heap[position]? = some version →
    version.Live next.status →
    ∃ before : Version Tid Row, state.heap[position]? = some before ∧ before.Live state.status

theorem Quiet.trans {middle : State Tid Row} (first : Quiet state middle)
    (second : Quiet middle next) : Quiet state next where
  origins := second.origins.trans first.origins
  commits := second.commits.trans first.commits
  live := by
    intro position version found live
    obtain ⟨between, foundBetween, liveBetween⟩ := second.live position version found live
    exact first.live position between foundBetween liveBetween

theorem Quiet.liveRows (quiet : Quiet state next) : next.liveRows = state.liveRows := by
  rw [← State.map_snd_origins, quiet.origins, State.map_snd_origins]

theorem Quiet.mark (uncommitted : state.status tid ≠ .committed) {position : Nat}
    {version : Version Tid Row} (found : state.heap[position]? = some version)
    (free : version.deletable state.status = .free) :
    Quiet state { state with heap := markDeleted tid position state.heap } where
  origins := by
    apply map_filter_markDeleted
    intro current foundCurrent
    obtain rfl : version = current := Option.some.inj (found.symm.trans foundCurrent)
    refine ⟨?_, rfl⟩
    rw [decide_eq_decide]
    exact Version.live_mark uncommitted free
  commits := rfl
  live := by
    intro other current marked live
    obtain ⟨before, foundBefore, _, writer, here | elsewhere⟩ := of_getElem?_markDeleted marked
    · obtain ⟨rfl, _⟩ := here
      obtain rfl : version = before := Option.some.inj (found.symm.trans foundBefore)
      refine ⟨version, found, (Version.settled_of_writer writer).mp live.1, ?_⟩
      rw [← Version.deletable_eq_gone, free]
      simp
    · refine ⟨before, foundBefore, (Version.settled_of_writer writer).mp live.1, ?_⟩
      intro dead
      exact live.2 ((Version.dead_of_deleter elsewhere.2).mpr dead)

theorem Quiet.append (uncommitted : state.status tid ≠ .committed) (row : Row) :
    Quiet state { state with heap := state.heap ++ [{ row, writer := some tid }] } := by
  have dormant :
      ¬ ({ row, writer := some tid } : Version Tid Row).Live state.status := by
    intro live
    exact uncommitted (live.1 tid rfl)
  refine ⟨?_, rfl, ?_⟩
  · unfold State.origins ReadCommitted.origins
    simp only [List.filter_append, List.filter_cons, List.filter_nil]
    rw [if_neg]
    · rw [List.append_nil]
      rfl
    · rw [decide_eq_true_iff]
      exact dormant
  · intro position version found live
    rcases Nat.lt_or_ge position state.heap.length with inside | outside
    · rw [List.getElem?_append_left inside] at found
      exact ⟨version, found, live⟩
    · rw [List.getElem?_append_right outside] at found
      rw [List.mem_singleton.mp (List.mem_of_getElem? found)] at live
      exact absurd live dormant

variable [DecidableEq Tid] {program : Program Tid Row Key}

theorem Quiet.move {phase : Phase Row} (before : state.status tid ≠ .committed)
    (after : phase.status ≠ .committed) : Quiet state (state.move tid phase) where
  origins := by
    unfold State.origins ReadCommitted.origins
    congr 1
    apply List.filter_congr
    intro version _
    rw [decide_eq_decide]
    exact Version.live_congr (State.committed_move_iff before after)
  commits := rfl
  live := by
    intro position version found live
    exact ⟨version, found, (Version.live_congr (State.committed_move_iff before after)).mp live⟩

theorem quiet_step [DecidableEq Key] {event : Event Tid}
    (stepped : (machine program).step state event = some next)
    (noCommit : ∀ tid, event ≠ .commit tid) : Quiet state next := by
  obtain ⟨uncommitted, effect⟩ := step_effect stepped noCommit
  generalize event.tid = tid at uncommitted effect
  cases effect with
  | move phase after => exact Quiet.move uncommitted after
  | delete seen =>
      have moved := @Quiet.move _ _ state _ _ (.deleting seen) uncommitted (by simp [Phase.status])
      exact ⟨moved.origins, moved.commits, moved.live⟩
  | mark todo active found free =>
      have marked := Quiet.mark uncommitted found free
      exact marked.trans (Quiet.move uncommitted (by simp [Phase.status]))
  | append row todo =>
      have appended := Quiet.append uncommitted row
      exact appended.trans (Quiet.move uncommitted (by simp [Phase.status]))

/-!
## One commit
-/

/-- The DELETE of a transaction has seen every row that is live now. -/
def Covered (state : State Tid Row) (tid : Tid) : Prop :=
  ∀ position version, state.heap[position]? = some version → version.Live state.status →
    position ∈ state.seen tid

theorem live_commit_of_writer (sound : Sound program state)
    (stepped : state.commit tid = some next) {version : Version Tid Row}
    (member : version ∈ state.heap) (own : version.writer = some tid) :
    version.Live next.status := by
  obtain ⟨phase, rfl⟩ := State.commit_eq_some.mp stepped
  constructor
  · intro writer written
    rw [own, Option.mem_some_iff] at written
    rw [← written]
    exact State.status_move_self .committed
  · intro dead
    obtain ⟨deleter, marked, _⟩ := dead
    obtain ⟨position, found⟩ := List.mem_iff_getElem?.mp member
    have saw := sound.deleter_saw deleter position version found (Option.mem_def.mp marked)
    obtain ⟨same, foundAgain, settled⟩ := sound.seen_settled deleter position saw
    obtain rfl : version = same := Option.some.inj (found.symm.trans foundAgain)
    have committed := settled tid own
    rw [State.status_of_phase phase] at committed
    cases committed

theorem live_commit_of_unseen (sound : Sound program state)
    (stepped : state.commit tid = some next) {position : Nat} {version : Version Tid Row}
    (found : state.heap[position]? = some version) (live : version.Live state.status)
    (unseen : position ∉ state.seen tid) : version.Live next.status := by
  obtain ⟨phase, rfl⟩ := State.commit_eq_some.mp stepped
  refine ⟨Settled.commit live.1, ?_⟩
  intro dead
  obtain ⟨deleter, marked, committed⟩ := dead
  by_cases own : deleter = tid
  · rw [own] at marked
    exact unseen (sound.deleter_saw tid position version found (Option.mem_def.mp marked))
  · refine live.2 ⟨deleter, marked, ?_⟩
    exact (State.status_move_ne .committed own).symm.trans committed

theorem not_live_commit_of_seen (sound : Sound program state)
    (stepped : state.commit tid = some next) {position : Nat} {version : Version Tid Row}
    (found : state.heap[position]? = some version) (seen : position ∈ state.seen tid) :
    ¬ version.Live next.status := by
  obtain ⟨phase, rfl⟩ := State.commit_eq_some.mp stepped
  intro live
  have deleted := sound.deleted tid (by rw [phase]; trivial) position seen
    (by rw [phase]; exact List.not_mem_nil) version found
  rcases deleted with own | dead
  · exact live.2 ⟨tid, own, State.status_move_self .committed⟩
  · exact live.2 (Dead.commit dead)

theorem rows_of_commit (sound : Sound program state) (stepped : state.commit tid = some next) :
    program.rows tid = some (written tid state.heap) := by
  obtain ⟨phase, _⟩ := State.commit_eq_some.mp stepped
  have wrote := sound.wrote tid
  rw [phase] at wrote
  rw [← List.append_nil (written tid state.heap)]
  exact wrote

theorem heap_commit (stepped : state.commit tid = some next) : next.heap = state.heap := by
  obtain ⟨_, rfl⟩ := State.commit_eq_some.mp stepped
  rfl

theorem commits_commit (stepped : state.commit tid = some next) :
    next.commits = state.commits ++ [tid] := by
  obtain ⟨_, rfl⟩ := State.commit_eq_some.mp stepped
  rfl

theorem commits_prefix_step [DecidableEq Key] {event : Event Tid}
    (stepped : (machine program).step state event = some next) :
    state.commits <+: next.commits := by
  by_cases isCommit : ∃ tid, event = .commit tid
  · obtain ⟨tid, rfl⟩ := isCommit
    have committed : state.commit tid = some next := stepped
    rw [commits_commit committed]
    exact List.prefix_append _ _
  · have quiet := quiet_step stepped (not_exists.mp isCommit)
    exact quiet.commits ▸ List.prefix_rfl

theorem live_commit_iff_of_covered (sound : Sound program state)
    (stepped : state.commit tid = some next) (covered : Covered state tid)
    {version : Version Tid Row} (member : version ∈ state.heap) :
    version.Live next.status ↔ version.writer = some tid := by
  constructor
  · intro live
    obtain ⟨position, found⟩ := List.mem_iff_getElem?.mp member
    have wasNot : ¬ version.Live state.status := by
      intro wasLive
      exact not_live_commit_of_seen sound stepped found
        (covered position version found wasLive) live
    obtain ⟨phase, rfl⟩ := State.commit_eq_some.mp stepped
    exact writer_of_live_commit live wasNot
  · exact live_commit_of_writer sound stepped member

theorem liveRows_commit_of_covered (sound : Sound program state)
    (stepped : state.commit tid = some next) (covered : Covered state tid) :
    program.rows tid = some next.liveRows := by
  have own : next.liveRows = written tid state.heap := by
    unfold State.liveRows
    rw [heap_commit stepped]
    exact liveRows_eq_written fun version member =>
      live_commit_iff_of_covered sound stepped covered member
  rw [own]
  exact rows_of_commit sound stepped

theorem origins_commit_of_covered (sound : Sound program state)
    (stepped : state.commit tid = some next) (covered : Covered state tid) :
    ∀ origin ∈ next.origins, origin.1 = some tid := by
  intro origin member
  obtain ⟨version, inHeap, live, writer, _⟩ := State.mem_origins.mp member
  rw [heap_commit stepped] at inHeap
  rw [← writer]
  exact (live_commit_iff_of_covered sound stepped covered inHeap).mp live

theorem keys_commit_of_covered (sound : Sound program state)
    (stepped : state.commit tid = some next) (covered : Covered state tid) :
    (next.liveRows.map program.key).Nodup := by
  have own : next.liveRows = written tid state.heap :=
    Option.some.inj ((liveRows_commit_of_covered sound stepped covered).symm.trans
      (rows_of_commit sound stepped))
  rw [own]
  exact sound.distinct tid

theorem covered_delete (sound : Sound program state) (stepped : state.delete tid = some next) :
    Covered next tid := by
  unfold State.delete at stepped
  split at stepped
  · rename_i phase
    cases stepped
    intro position version found live
    have moved := @State.committed_move_iff _ _ state tid _
      (.deleting (snapshot state.status tid state.heap))
      (by simp [State.status_of_phase phase, Phase.status]) (by simp [Phase.status])
    simp only [Function.update_self]
    exact (sound.mem_snapshot_iff phase).mpr ⟨version, found, (Version.live_congr moved).mp live⟩
  · cases stepped

omit [DecidableEq Tid] in
theorem Covered.of_quiet (covered : Covered state tid) (quiet : Quiet state next)
    (seen : next.seen tid = state.seen tid) : Covered next tid := by
  intro position version found live
  obtain ⟨before, foundBefore, liveBefore⟩ := quiet.live position version found live
  rw [seen]
  exact covered position before foundBefore liveBefore

/-!
## Runs without a commit
-/

section

variable [DecidableEq Key] {final : State Tid Row} {events : List (Event Tid)}

/-- Until somebody commits, a DELETE has seen all that is in the table. -/
theorem covered_run (sound : Sound program state) (covered : Covered state tid)
    (noCommit : ∀ event ∈ events, ∀ other, event ≠ .commit other)
    (ran : (machine program).run state events = some final) :
    Sound program final ∧ Covered final tid := by
  induction events generalizing state with
  | nil =>
      cases ran
      exact ⟨sound, covered⟩
  | cons event events ih =>
      obtain ⟨next, stepped, ran⟩ := Option.bind_eq_some_iff.mp ran
      obtain ⟨own, rest⟩ := List.forall_mem_cons.mp noCommit
      refine ih (sound.step stepped) ?_ rest ran
      by_cases deletes : event = .delete tid
      · subst deletes
        exact covered_delete sound stepped
      · exact covered.of_quiet (quiet_step stepped own) (seen_step stepped deletes)

theorem liveRows_run (noCommit : ∀ event ∈ events, ∀ other, event ≠ .commit other)
    (ran : (machine program).run state events = some final) :
    final.liveRows = state.liveRows := by
  induction events generalizing state with
  | nil =>
      cases ran
      rfl
  | cons event events ih =>
      obtain ⟨next, stepped, ran⟩ := Option.bind_eq_some_iff.mp ran
      obtain ⟨own, rest⟩ := List.forall_mem_cons.mp noCommit
      rw [ih rest ran, (quiet_step stepped own).liveRows]

end

/-!
## One origin
-/

def FromOne (program : Program Tid Row Key) (state : State Tid Row) : Prop :=
  ∃ tid ∈ state.commits, (∀ origin ∈ state.origins, origin.1 = some tid) ∧
    program.rows tid = some state.liveRows

def OneOrigin (program : Program Tid Row Key) (state : State Tid Row) : Prop :=
  (∀ origin ∈ state.origins, origin.1 = none) ∨ FromOne program state

omit [DecidableEq Tid] in
theorem OneOrigin.initial (table : List Row) :
    OneOrigin program (Replacement.initial table : State Tid Row) := by
  left
  intro origin member
  obtain ⟨version, inHeap, _, writer, _⟩ := State.mem_origins.mp member
  obtain ⟨row, _, rfl⟩ := List.mem_map.mp inHeap
  exact writer.symm

omit [DecidableEq Tid] in
theorem OneOrigin.of_quiet (single : OneOrigin program state) (quiet : Quiet state next) :
    OneOrigin program next := by
  unfold OneOrigin FromOne
  rw [quiet.origins, quiet.liveRows, quiet.commits]
  exact single

theorem FromOne.of_covered (sound : Sound program state)
    (stepped : state.commit tid = some next) (covered : Covered state tid) :
    FromOne program next := by
  refine ⟨tid, ?_, origins_commit_of_covered sound stepped covered,
    liveRows_commit_of_covered sound stepped covered⟩
  rw [commits_commit stepped]
  exact List.mem_append_right _ List.mem_cons_self

/-- Where a commit leaves a live row behind, its DELETE has seen none of the
live rows: they are all another transaction's. -/
theorem unseen_of_not_covered (sound : Sound program state) (single : OneOrigin program state)
    (stepped : state.commit tid = some next) (uncovered : ¬ Covered state tid) :
    ∃ other ∈ state.commits, program.rows other = some state.liveRows ∧ state.liveRows ≠ [] ∧
      ∀ position version, state.heap[position]? = some version → version.Live state.status →
        version.writer = some other ∧ position ∉ state.seen tid := by
  obtain ⟨phase, _⟩ := State.commit_eq_some.mp stepped
  have isActive : (state.phase tid).Active := by rw [phase]; trivial
  unfold Covered at uncovered
  push Not at uncovered
  obtain ⟨lost, survivor, foundLost, liveLost, unseenLost⟩ := uncovered
  have whole := sound.whole tid isActive
  have memberLost : (survivor.writer, survivor.row) ∈ state.origins :=
    State.mem_origins.mpr ⟨survivor, List.mem_of_getElem? foundLost, liveLost, rfl, rfl⟩
  rcases single with initial | single
  · exact absurd (whole lost survivor foundLost liveLost (.inl (initial _ memberLost))) unseenLost
  · obtain ⟨other, committed, writers, rows⟩ := single
    refine ⟨other, committed, rows, ?_, ?_⟩
    · rw [← State.map_snd_origins]
      exact List.ne_nil_of_mem (List.mem_map_of_mem memberLost)
    · intro position version found live
      have writer : version.writer = some other := writers _
        (State.mem_origins.mpr ⟨version, List.mem_of_getElem? found, live, rfl, rfl⟩)
      refine ⟨writer, ?_⟩
      intro saw
      refine unseenLost (whole lost survivor foundLost liveLost (.inr ⟨position, saw, version, found, ?_⟩))
      exact writer.trans (writers _ memberLost).symm

theorem FromOne.of_empty (sound : Sound program state) (single : OneOrigin program state)
    (stepped : state.commit tid = some next) (empty : program.rows tid = some []) :
    FromOne program next := by
  by_cases covered : Covered state tid
  · exact of_covered sound stepped covered
  · obtain ⟨other, committed, otherRows, _, known⟩ :=
      unseen_of_not_covered sound single stepped covered
    have unwritten : written tid state.heap = [] :=
      Option.some.inj ((rows_of_commit sound stepped).symm.trans empty)
    have origins : next.origins = state.origins := by
      unfold State.origins origins
      rw [heap_commit stepped]
      congr 1
      apply List.filter_congr
      intro version member
      rw [decide_eq_decide]
      obtain ⟨position, found⟩ := List.mem_iff_getElem?.mp member
      constructor
      · intro live
        by_contra wasNot
        have foreign := writer_ne_of_written_nil unwritten found
        obtain ⟨phase, rfl⟩ := State.commit_eq_some.mp stepped
        exact foreign (writer_of_live_commit live wasNot)
      · intro live
        exact live_commit_of_unseen sound stepped found live (known position version found live).2
    have writers : ∀ origin ∈ next.origins, origin.1 = some other := by
      intro origin member
      rw [origins] at member
      obtain ⟨version, inHeap, live, writer, _⟩ := State.mem_origins.mp member
      obtain ⟨position, found⟩ := List.mem_iff_getElem?.mp inHeap
      exact writer.symm.trans (known position version found live).1
    refine ⟨other, ?_, writers, ?_⟩
    · rw [commits_commit stepped]
      exact List.mem_append_left _ committed
    · rw [← State.map_snd_origins, origins, State.map_snd_origins]
      exact otherRows

def Numbering (program : Program Tid Row Key) (slot : Row → Nat) : Prop :=
  ∀ tid rows, program.rows tid = some rows → rows.map slot = List.range rows.length

/-- Rows of two transactions in one table repeat the number 0. -/
theorem liveRows_ne_of_not_covered {slot : Row → Nat} (numbering : Numbering program slot)
    (sound : Sound program state) (single : OneOrigin program state)
    (stepped : state.commit tid = some next) (uncovered : ¬ Covered state tid)
    (nonempty : program.rows tid ≠ some []) (other : Tid) :
    program.rows other ≠ some next.liveRows := by
  intro rows
  obtain ⟨earlier, committed, earlierRows, earlierNonempty, known⟩ :=
    unseen_of_not_covered sound single stepped uncovered
  have ownRows := rows_of_commit sound stepped
  have zero {tid : Tid} {rows : List Row} (planned : program.rows tid = some rows)
      (present : rows ≠ []) : ∃ row ∈ rows, slot row = 0 := by
    have member : 0 ∈ rows.map slot := by
      rw [numbering tid rows planned, List.mem_range]
      exact List.length_pos_of_ne_nil present
    exact List.mem_map.mp member
  obtain ⟨first, firstMember, firstZero⟩ := zero earlierRows earlierNonempty
  obtain ⟨second, secondMember, secondZero⟩ := zero ownRows (by
    intro unwritten
    exact nonempty (ownRows.trans (congrArg some unwritten)))
  obtain ⟨old, oldMember, rfl⟩ := List.mem_map.mp firstMember
  obtain ⟨new, newMember, rfl⟩ := List.mem_map.mp secondMember
  obtain ⟨oldInHeap, oldLive⟩ := List.mem_filter.mp oldMember
  obtain ⟨newInHeap, newWriter⟩ := List.mem_filter.mp newMember
  obtain ⟨position, found⟩ := List.mem_iff_getElem?.mp oldInHeap
  obtain ⟨oldWriter, unseen⟩ := known position old found (of_decide_eq_true oldLive)
  have oldStays := live_commit_of_unseen sound stepped found (of_decide_eq_true oldLive) unseen
  have newLives := live_commit_of_writer sound stepped newInHeap (of_decide_eq_true newWriter)
  have distinctSlots : (next.liveRows.map slot).Nodup := by
    rw [numbering other _ rows]
    exact List.nodup_range
  unfold State.liveRows liveRows at distinctSlots
  rw [heap_commit stepped, List.map_map] at distinctSlots
  have same : old = new := List.inj_on_of_nodup_map distinctSlots
    (List.mem_filter.mpr ⟨oldInHeap, decide_eq_true oldStays⟩)
    (List.mem_filter.mpr ⟨newInHeap, decide_eq_true newLives⟩)
    (firstZero.trans secondZero.symm)
  rw [← same, oldWriter] at newWriter
  obtain rfl : earlier = tid := Option.some.inj (of_decide_eq_true newWriter)
  have done := (sound.mem_commits_iff earlier).mp committed
  rw [(State.commit_eq_some.mp stepped).1] at done
  cases done

/-!
## Runs
-/

/-- The committed table is the list of one committed transaction. -/
def HoldsOneList (program : Program Tid Row Key) (state : State Tid Row) : Prop :=
  ∃ tid ∈ state.commits, program.rows tid = some state.liveRows

/-- A commit mixes no lists: it has no rows, or replaces all that are live. -/
def Unmixed (program : Program Tid Row Key) (before : State Tid Row) (tid : Tid) : Prop :=
  program.rows tid = some [] ∨ Covered before tid

theorem FromOne.of_unmixed (sound : Sound program state) (single : OneOrigin program state)
    (stepped : state.commit tid = some next) (unmixed : Unmixed program state tid) :
    FromOne program next := by
  rcases unmixed with empty | covered
  · exact of_empty sound single stepped empty
  · exact of_covered sound stepped covered

theorem holdsOneList_iff_unmixed {slot : Row → Nat} (numbering : Numbering program slot)
    (sound : Sound program state) (single : OneOrigin program state)
    (stepped : state.commit tid = some next) :
    HoldsOneList program next ↔ Unmixed program state tid := by
  constructor
  · intro holds
    obtain ⟨other, _, rows⟩ := holds
    by_contra mixed
    obtain ⟨nonempty, uncovered⟩ := not_or.mp mixed
    exact liveRows_ne_of_not_covered numbering sound single stepped uncovered nonempty other rows
  · intro unmixed
    obtain ⟨other, committed, _, rows⟩ := FromOne.of_unmixed sound single stepped unmixed
    exact ⟨other, committed, rows⟩

/-- Lists stay unmixed in exactly the runs without a mixing commit. -/
theorem everyCommit_holdsOneList_iff [DecidableEq Key] {slot : Row → Nat}
    (numbering : Numbering program slot) (table : List Row) (events : List (Event Tid)) :
    (machine program).EveryStep
        (fun _ event after => ∀ tid, event = .commit tid → HoldsOneList program after)
        (initial table) events ↔
      (machine program).EveryStep
        (fun before event _ => ∀ tid, event = .commit tid → Unmixed program before tid)
        (initial table) events := by
  apply @Machine.everyStep_iff _ _ _ fun state => Sound program state ∧ OneOrigin program state
  · intro before event after invariant stepped
    obtain ⟨sound, single⟩ := invariant
    refine forall_congr' fun tid => forall_congr' fun isCommit => ?_
    subst isCommit
    exact holdsOneList_iff_unmixed numbering sound single stepped
  · intro before event after invariant stepped unmixed
    obtain ⟨sound, single⟩ := invariant
    refine ⟨sound.step stepped, ?_⟩
    by_cases isCommit : ∃ tid, event = .commit tid
    · obtain ⟨tid, rfl⟩ := isCommit
      exact .inr (FromOne.of_unmixed sound single stepped (unmixed tid rfl))
    · exact single.of_quiet (quiet_step stepped (not_exists.mp isCommit))
  · exact ⟨Sound.initial table, OneOrigin.initial table⟩

end Replacement
