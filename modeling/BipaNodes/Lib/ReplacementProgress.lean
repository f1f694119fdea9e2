import BipaNodes.Lib.Progress
import BipaNodes.Lib.ReplacementCommits

/-!
# A replacement left alone

While no other transaction is open, a replacement whose rows have distinct keys
is never stuck and reaches its commit within as many steps as it has rows to
delete and to insert, and four.
-/

set_option autoImplicit false

open ReadCommitted

namespace Replacement

variable {Tid Row Key : Type}

/-- The transaction holds no lock: it has not begun, or is over. -/
def Phase.Released : Phase Row → Prop
  | .idle | .committed | .aborted => True
  | _ => False

theorem Phase.Released.ended {phase : Phase Row} (released : phase.Released)
    (begun : phase ≠ .idle) : phase.status = .committed ∨ phase.status = .aborted := by
  cases phase with
  | idle => exact absurd rfl begun
  | committed => exact .inl rfl
  | aborted => exact .inr rfl
  | _ => exact released.elim

variable [DecidableEq Tid] {program : Program Tid Row Key} {state next : State Tid Row} {tid : Tid}
  {rows : List Row}

/-- What is between a transaction and its commit is its own work. -/
structure Unhindered (program : Program Tid Row Key) (tid : Tid) (rows : List Row)
    (state : State Tid Row) : Prop where
  sound : Sound program state
  opens : program.opens tid = true
  planned : program.rows tid = some rows
  distinct : (rows.map program.key).Nodup
  released : ∀ other, other ≠ tid → (state.phase other).Released
  going : state.phase tid ≠ .failed ∧ state.phase tid ≠ .aborted
  covered : (state.phase tid).Active → state.phase tid ≠ .committed → Covered state tid
  /-- What the DELETE has yet to visit, it has not marked. -/
  unmarked : ∀ position ∈ (state.phase tid).unvisited, ∀ version,
    state.heap[position]? = some version → version.deleter ≠ some tid
  once : (state.phase tid).unvisited.Nodup

/-- The steps that are left to the commit, at most. -/
def State.remaining (state : State Tid Row) (tid : Tid) (rows : List Row) : Nat :=
  match state.phase tid with
  | .idle => state.heap.length + rows.length + 4
  | .begun => state.heap.length + rows.length + 3
  | .deleting todo => todo.length + rows.length + 2
  | .inserting todo => todo.length + 1
  | _ => 0

def Event.forward (tid : Tid) (event : Event Tid) : Bool :=
  event.tid = tid ∧ event ≠ .rollback tid

/-!
## Nothing is locked
-/

section

variable (unhindered : Unhindered program tid rows state) {version : Version Tid Row}
  {position : Nat}

include unhindered

theorem Unhindered.writer_ended {writer : Tid} (foreign : writer ≠ tid)
    (member : version ∈ state.heap) (wrote : version.writer = some writer) :
    state.status writer = .committed ∨ state.status writer = .aborted := by
  refine (unhindered.released writer foreign).ended fun idle => ?_
  have written := unhindered.sound.wrote writer
  rw [idle] at written
  obtain ⟨position, found⟩ := List.mem_iff_getElem?.mp member
  exact writer_ne_of_written_nil written found wrote

theorem Unhindered.deleter_ended {deleter : Tid} (foreign : deleter ≠ tid)
    (found : state.heap[position]? = some version) (deleted : version.deleter = some deleter) :
    state.status deleter = .committed ∨ state.status deleter = .aborted := by
  refine (unhindered.released deleter foreign).ended fun idle => ?_
  have saw := unhindered.sound.deleter_saw deleter position version found deleted
  rw [unhindered.sound.unseen deleter (by rw [idle]; trivial)] at saw
  cases saw

/-- A row that the DELETE has yet to visit is free, or gone. -/
theorem Unhindered.deletable_ne_locked
    (unvisited : position ∈ (state.phase tid).unvisited)
    (found : state.heap[position]? = some version) :
    version.deletable state.status ≠ .locked := by
  have unmarked := unhindered.unmarked position unvisited version found
  unfold Version.deletable
  cases deleted : version.deleter with
  | none => simp
  | some deleter =>
      have foreign : deleter ≠ tid := fun own => unmarked (own ▸ deleted)
      rcases unhindered.deleter_ended foreign found deleted with committed | aborted
      · simp [committed]
      · simp [aborted]

/-- Once the DELETE is through, only an own row of the same key is in the way of
an insertion. -/
theorem Unhindered.insertable_eq_free {todo : List Row}
    (phase : state.phase tid = .inserting todo) (foreign : version.writer ≠ some tid)
    (found : state.heap[position]? = some version) :
    version.insertable state.status tid = .free := by
  have member := List.mem_of_getElem? found
  have active : (state.phase tid).Active := by rw [phase]; trivial
  have present (settled : version.Settled state.status) :
      version.deleter = some tid ∨ version.Dead state.status := by
    by_cases dead : version.Dead state.status
    · exact .inr dead
    · have seen := unhindered.covered active (by simp [phase]) position version found
        ⟨settled, dead⟩
      exact unhindered.sound.deleted tid active position seen (by simp [phase, Phase.unvisited])
        version found
  have visited (settled : version.Settled state.status) :
      ∃ deleter, version.deleter = some deleter ∧
        (deleter = tid ∨ state.status deleter = .committed) := by
    rcases present settled with own | dead
    · exact ⟨tid, own, .inl rfl⟩
    · obtain ⟨deleter, deleted, committed⟩ := dead
      exact ⟨deleter, deleted, .inr committed⟩
  unfold Version.insertable
  cases wrote : version.writer with
  | none =>
      obtain ⟨deleter, deleted, ended⟩ := visited (by simp [Version.Settled, wrote])
      rw [deleted]
      rcases ended with own | committed
      · simp [own]
      · simp [committed]
  | some writer =>
      have other : writer ≠ tid := fun own => foreign (own ▸ wrote)
      simp only [other, if_false]
      rcases unhindered.writer_ended other member wrote with committed | aborted
      · obtain ⟨deleter, deleted, ended⟩ := visited (by simp [Version.Settled, wrote, committed])
        rw [deleted]
        rcases ended with own | gone
        · simp [committed, own]
        · simp [committed, gone]
      · simp [aborted]

theorem Unhindered.uniqueCheck_free [DecidableEq Key] {row : Row} {todo : List Row}
    (phase : state.phase tid = .inserting (row :: todo)) :
    uniqueCheck program.key state.status tid row state.heap = .free := by
  have wrote := unhindered.sound.wrote tid
  rw [phase] at wrote
  have planned : rows = written tid state.heap ++ row :: todo :=
    Option.some.inj (unhindered.planned.symm.trans wrote)
  have distinct := unhindered.distinct
  rw [planned, List.map_append, List.nodup_append] at distinct
  have allFree : ∀ outcome ∈ (state.heap.filter fun version =>
      program.key version.row = program.key row).map fun version =>
        version.insertable state.status tid, outcome = .free := by
    intro outcome conflict
    obtain ⟨version, selected, rfl⟩ := List.mem_map.mp conflict
    obtain ⟨member, sameKey⟩ := List.mem_filter.mp selected
    have same : program.key version.row = program.key row := of_decide_eq_true sameKey
    obtain ⟨position, found⟩ := List.mem_iff_getElem?.mp member
    refine unhindered.insertable_eq_free phase (fun own => ?_) found
    have listed : version.row ∈ written tid state.heap :=
      List.mem_map_of_mem (List.mem_filter.mpr ⟨member, decide_eq_true own⟩)
    exact distinct.2.2 _ (List.mem_map_of_mem listed) _ (by simp) same
  unfold uniqueCheck
  simp only
  rw [if_neg (fun duplicate => by cases allFree _ duplicate),
    if_neg (fun locked => by cases allFree _ locked)]

end

/-!
## Steps
-/

section

variable [DecidableEq Key] {event : Event Tid}

theorem Unhindered.of_step (unhindered : Unhindered program tid rows state)
    (stepped : (machine program).step state event = some next) (own : event.tid = tid)
    (going : next.phase tid ≠ .failed ∧ next.phase tid ≠ .aborted)
    (unmarked : ∀ position ∈ (next.phase tid).unvisited, ∀ version,
      next.heap[position]? = some version → version.deleter ≠ some tid)
    (once : (next.phase tid).unvisited.Nodup) : Unhindered program tid rows next where
  sound := unhindered.sound.step stepped
  opens := unhindered.opens
  planned := unhindered.planned
  distinct := unhindered.distinct
  released := by
    intro other foreign
    rw [(frame_step stepped (own ▸ foreign)).1]
    exact unhindered.released other foreign
  going := going
  covered := by
    intro active uncommitted
    by_cases deletes : event = .delete tid
    · subst deletes
      exact covered_delete unhindered.sound stepped
    · have noCommit : ∀ other, event ≠ .commit other := by
        rintro other rfl
        obtain ⟨_, rfl⟩ := State.commit_eq_some.mp stepped
        obtain rfl : other = tid := own
        exact uncommitted (State.phase_move_self .committed)
      have before : state.phase tid ≠ .committed := by
        intro committed
        refine (step_effect stepped noCommit).1 ?_
        rw [own, State.status_of_phase committed]
        rfl
      exact (unhindered.covered (active_step stepped deletes active) before).of_quiet
        (quiet_step stepped noCommit) (seen_step stepped deletes)
  unmarked := unmarked
  once := once

/-- Each step forward takes the transaction nearer to its commit. -/
theorem Unhindered.step (unhindered : Unhindered program tid rows state)
    (forward : event.forward tid = true)
    (stepped : (machine program).step state event = some next) :
    Unhindered program tid rows next ∧ next.remaining tid rows < state.remaining tid rows := by
  obtain ⟨own, noRollback⟩ := of_decide_eq_true forward
  have onward := unhindered.of_step stepped own
  cases event with
  | begin other =>
      obtain rfl : other = tid := own
      simp only [machine, State.begin, unhindered.opens, if_true] at stepped
      split at stepped
      · rename_i idle
        cases stepped
        constructor
        · exact onward (by simp) (by simp [Phase.unvisited]) (by simp [Phase.unvisited])
        · simp only [State.remaining, State.phase_move_self, idle]
          exact Nat.lt_succ_self _
      · cases stepped
  | delete other =>
      obtain rfl : other = tid := own
      simp only [machine, State.delete] at stepped
      split at stepped
      · rename_i begun
        cases stepped
        constructor
        · refine onward (by simp [State.move]) ?_ ?_
          · intro position unvisited version found
            simp only [State.phase_move_self, Phase.unvisited] at unvisited
            obtain ⟨seen, here, visible⟩ := mem_snapshot.mp unvisited
            obtain rfl : version = seen := Option.some.inj (found.symm.trans here)
            exact fun marked => visible.2 ⟨_, marked, .inl rfl⟩
          · simp only [State.phase_move_self, Phase.unvisited]
            exact List.nodup_range.filter _
        · have few : (snapshot state.status other state.heap).length ≤ state.heap.length :=
            Nat.le_trans (List.length_filter_le _ _) (Nat.le_of_eq List.length_range)
          simp only [State.remaining, State.phase_move_self, begun]
          omega
      · cases stepped
  | deleteRow other position =>
      obtain rfl : other = tid := own
      simp only [machine, State.deleteRow] at stepped
      split at stepped
      · rename_i todo phase
        have unmarked := unhindered.unmarked
        have once := unhindered.once
        rw [phase] at unmarked once
        have fewer (member : position ∈ todo) :
            (todo.erase position).length + rows.length + 2 < todo.length + rows.length + 2 := by
          have present := List.length_pos_of_mem member
          rw [List.length_erase_of_mem member]
          omega
        split at stepped
        · rename_i member
          split at stepped
          · cases stepped
          · split at stepped
            · cases stepped
              constructor
              · refine onward (by simp) ?_ ?_
                · intro later unvisited version found
                  simp only [State.phase_move_self, Phase.unvisited] at unvisited
                  obtain ⟨before, here, _, _, deleter⟩ := of_getElem?_markDeleted found
                  rcases deleter with visited | untouched
                  · rw [visited.1] at unvisited
                    exact absurd unvisited (List.Nodup.not_mem_erase once)
                  · rw [untouched.2]
                    exact unmarked later (List.mem_of_mem_erase unvisited) before here
                · simp only [State.phase_move_self, Phase.unvisited]
                  exact once.erase position
              · simp only [State.remaining, State.phase_move_self, phase]
                exact fewer member
            · cases stepped
            · cases stepped
              constructor
              · refine onward (by simp) ?_ ?_
                · intro later unvisited
                  simp only [State.phase_move_self, Phase.unvisited] at unvisited
                  exact unmarked later (List.mem_of_mem_erase unvisited)
                · simp only [State.phase_move_self, Phase.unvisited]
                  exact once.erase position
              · simp only [State.remaining, State.phase_move_self, phase]
                exact fewer member
        · cases stepped
      · cases stepped
  | insert other =>
      obtain rfl : other = tid := own
      simp only [machine, State.insert, unhindered.planned] at stepped
      split at stepped
      · rename_i phase
        cases stepped
        constructor
        · exact onward (by simp) (by simp [Phase.unvisited]) (by simp [Phase.unvisited])
        · simp only [State.remaining, State.phase_move_self, phase]
          omega
      · cases stepped
  | insertRow other =>
      obtain rfl : other = tid := own
      simp only [machine, State.insertRow] at stepped
      split at stepped
      · rename_i row todo phase
        rw [unhindered.uniqueCheck_free phase] at stepped
        cases stepped
        constructor
        · exact onward (by simp) (by simp [Phase.unvisited]) (by simp [Phase.unvisited])
        · simp only [State.remaining, State.phase_move_self, phase]
          exact Nat.lt_succ_self _
      · cases stepped
  | commit other =>
      obtain rfl : other = tid := own
      obtain ⟨phase, rfl⟩ := State.commit_eq_some.mp stepped
      constructor
      · exact onward (by simp) (by simp [Phase.unvisited]) (by simp [Phase.unvisited])
      · simp only [State.remaining, State.phase_move_self, phase]
        exact Nat.succ_pos _
  | rollback other =>
      obtain rfl : other = tid := own
      exact absurd rfl noRollback

/-- It can always go forward. -/
theorem Unhindered.enabled (unhindered : Unhindered program tid rows state)
    (uncommitted : state.phase tid ≠ .committed) :
    ∃ event next, event.forward tid = true ∧ (machine program).step state event = some next := by
  have advance (event : Event Tid) (forward : event.forward tid = true)
      (possible : ((machine program).step state event).isSome = true) :
      ∃ event next, event.forward tid = true ∧ (machine program).step state event = some next := by
    obtain ⟨next, stepped⟩ := Option.isSome_iff_exists.mp possible
    exact ⟨event, next, forward, stepped⟩
  cases phase : state.phase tid with
  | idle =>
      refine advance (.begin tid) (by simp [Event.forward, Event.tid]) ?_
      simp [machine, State.begin, phase, unhindered.opens]
  | begun =>
      refine advance (.delete tid) (by simp [Event.forward, Event.tid]) ?_
      simp [machine, State.delete, phase]
  | deleting todo =>
      cases todo with
      | nil =>
          refine advance (.insert tid) (by simp [Event.forward, Event.tid]) ?_
          simp [machine, State.insert, phase, unhindered.planned]
      | cons position todo =>
          have unvisited : position ∈ (state.phase tid).unvisited := by
            rw [phase]
            exact List.mem_cons_self
          obtain ⟨version, found, _⟩ := unhindered.sound.seen_settled tid position
            (unhindered.sound.unvisited_seen tid position unvisited)
          have unlocked := unhindered.deletable_ne_locked unvisited found
          refine advance (.deleteRow tid position) (by simp [Event.forward, Event.tid]) ?_
          cases outcome : version.deletable state.status with
          | locked => exact absurd outcome unlocked
          | free | gone => simp [machine, State.deleteRow, phase, found, outcome]
  | inserting todo =>
      cases todo with
      | nil =>
          refine advance (.commit tid) (by simp [Event.forward, Event.tid]) ?_
          simp [machine, State.commit, phase]
      | cons row todo =>
          refine advance (.insertRow tid) (by simp [Event.forward, Event.tid]) ?_
          simp [machine, State.insertRow, phase, unhindered.uniqueCheck_free phase]
  | failed => exact absurd phase unhindered.going.1
  | aborted => exact absurd phase unhindered.going.2
  | committed => exact absurd phase uncommitted

/-- The transaction on its own. -/
def forwardProgress (program : Program Tid Row Key) (tid : Tid) (rows : List Row) :
    Progress ((machine program).restrict (Event.forward tid)) where
  invariant := Unhindered program tid rows
  own event := event.forward tid = true
  done state := state.phase tid = .committed
  measure state := state.remaining tid rows
  preserves := by
    intro state event next unhindered stepped
    obtain ⟨forward, stepped⟩ := Machine.step_restrict.mp stepped
    exact (unhindered.step forward stepped).1
  bounded := by
    intro state event next unhindered stepped
    obtain ⟨forward, stepped⟩ := Machine.step_restrict.mp stepped
    exact Nat.le_of_lt (unhindered.step forward stepped).2
  decreases := by
    intro state event next unhindered forward stepped
    exact (unhindered.step forward (Machine.step_restrict.mp stepped).2).2
  enabled := by
    intro state unhindered uncommitted
    obtain ⟨event, next, forward, stepped⟩ := unhindered.enabled uncommitted
    exact ⟨event, next, forward, Machine.step_restrict.mpr ⟨forward, stepped⟩⟩

/-- The transaction has replaced the table, or has committed nothing. -/
structure Outcome (before : List Tid) (tid : Tid) (rows : List Row) (state : State Tid Row) :
    Prop where
  pending : state.phase tid ≠ .committed → state.commits = before
  committed : state.phase tid = .committed →
    state.commits = before ++ [tid] ∧ state.liveRows = rows

theorem Unhindered.outcome_step (unhindered : Unhindered program tid rows state)
    {before : List Tid} (outcome : Outcome before tid rows state)
    (forward : event.forward tid = true)
    (stepped : (machine program).step state event = some next) : Outcome before tid rows next := by
  have own := (of_decide_eq_true forward).1
  have after := (unhindered.sound.step stepped).mem_commits_iff tid
  by_cases isCommit : ∃ other, event = .commit other
  · obtain ⟨other, rfl⟩ := isCommit
    obtain rfl : other = tid := own
    have phase := (State.commit_eq_some.mp stepped).1
    have commits := commits_commit stepped
    have covered := unhindered.covered (by rw [phase]; trivial) (by rw [phase]; nofun)
    have planned := liveRows_commit_of_covered unhindered.sound stepped covered
    rw [unhindered.planned, Option.some.injEq] at planned
    refine ⟨fun uncommitted => absurd (after.mp (by simp [commits])) uncommitted, fun _ => ?_⟩
    rw [commits, outcome.pending (by rw [phase]; nofun)]
    exact ⟨rfl, planned.symm⟩
  · have quiet := quiet_step stepped (not_exists.mp isCommit)
    rw [quiet.commits, unhindered.sound.mem_commits_iff tid] at after
    refine ⟨fun uncommitted => ?_, fun committed => ?_⟩
    · rw [quiet.commits]
      exact outcome.pending (mt after.mp uncommitted)
    · rw [quiet.commits, quiet.liveRows]
      exact outcome.committed (after.mpr committed)

/-- It reaches its commit, and the table is its rows. -/
theorem Unhindered.commits (unhindered : Unhindered program tid rows state)
    (uncommitted : state.phase tid ≠ .committed) :
    ∃ events final, (machine program).run state events = some final ∧
      final.phase tid = .committed ∧ final.liveRows = rows ∧
      final.commits = state.commits ++ [tid] ∧
      (∀ event ∈ events, event.forward tid = true) ∧
      events.length ≤ state.remaining tid rows := by
  obtain ⟨events, final, ran, committed, forward, short⟩ :=
    (forwardProgress program tid rows).reaches unhindered
  have initially : Outcome state.commits tid rows state :=
    ⟨fun _ => rfl, fun committed => absurd committed uncommitted⟩
  have atEnd : Unhindered program tid rows final ∧ Outcome state.commits tid rows final := by
    refine @Machine.run_preserves _ _ _ (fun later => Unhindered program tid rows later ∧
      Outcome state.commits tid rows later) ?_ _ _ _ ⟨unhindered, initially⟩ ran
    intro earlier event later held stepped
    obtain ⟨forward, stepped⟩ := Machine.step_restrict.mp stepped
    exact ⟨(held.1.step forward stepped).1, held.1.outcome_step held.2 forward stepped⟩
  obtain ⟨commits, live⟩ := atEnd.2.committed committed
  exact ⟨events, final, (Machine.run_restrict ran).1, committed, live, commits, forward, short⟩

/-- Whatever is open can be rolled back. -/
theorem rollbacks (program : Program Tid Row Key) (tids : List Tid) (state : State Tid Row) :
    ∃ events final, (machine program).run state events = some final ∧
      (∀ event ∈ events, ∃ tid, event = .rollback tid) ∧
      (∀ tid ∈ tids, (final.phase tid).Released) ∧
      (∀ tid, (state.phase tid).Released → final.phase tid = state.phase tid) ∧
      final.commits = state.commits := by
  induction tids generalizing state with
  | nil => exact ⟨[], state, rfl, nofun, nofun, fun _ _ => rfl, rfl⟩
  | cons tid tids ih =>
      by_cases released : (state.phase tid).Released
      · obtain ⟨events, final, ran, only, ended, kept, commits⟩ := ih state
        refine ⟨events, final, ran, only, List.forall_mem_cons.mpr ⟨?_, ended⟩, kept, commits⟩
        rw [kept tid released]
        exact released
      · have stepped : (machine program).step state (.rollback tid) =
            some (state.move tid .aborted) := by
          simp only [machine, State.rollback]
          split
          · rfl
          · rfl
          · rfl
          · rfl
          · rename_i begun deleting inserting failed
            cases phase : state.phase tid <;> simp_all [Phase.Released]
        obtain ⟨events, final, ran, only, ended, kept, commits⟩ := ih (state.move tid .aborted)
        have own : final.phase tid = .aborted := by
          rw [kept tid (by rw [State.phase_move_self]; trivial), State.phase_move_self]
        refine ⟨.rollback tid :: events, final, ?_, ?_, ?_, ?_, commits⟩
        · rw [Machine.run_cons, stepped]
          exact ran
        · exact List.forall_mem_cons.mpr ⟨⟨tid, rfl⟩, only⟩
        · exact List.forall_mem_cons.mpr ⟨by rw [own]; trivial, ended⟩
        · intro other otherReleased
          have foreign : other ≠ tid := fun same => released (same ▸ otherReleased)
          have same : (state.move tid .aborted).phase other = state.phase other :=
            State.phase_move_ne .aborted foreign
          rw [kept other (same ▸ otherReleased), same]

end

end Replacement
