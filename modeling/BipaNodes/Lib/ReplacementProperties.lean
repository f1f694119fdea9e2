import BipaNodes.Lib.Replacement

/-! Every run of concurrent replacements keeps its bookkeeping sound; a commit
whose DELETE has seen every live row leaves exactly its own rows. -/

set_option autoImplicit false

open ReadCommitted

namespace Replacement

variable {Tid Row Key : Type}

namespace Phase

def Opening : Phase Row → Prop
  | .idle | .begun => True
  | _ => False

/-- The DELETE has started and the transaction is not rolled back. -/
def Active : Phase Row → Prop
  | .deleting _ | .inserting _ | .failed | .committed => True
  | _ => False

def unvisited : Phase Row → List Nat
  | .deleting todo => todo
  | _ => []

/-- What a transaction that inserts `rows` has written. -/
def Wrote (rows : Option (List Row)) (written : List Row) : Phase Row → Prop
  | .idle | .begun | .deleting _ => written = []
  | .inserting todo => rows = some (written ++ todo)
  | .committed => rows = some written
  | .failed | .aborted => True

end Phase

variable {state next : State Tid Row} {tid : Tid}

theorem State.status_of_phase {phase : Phase Row} (known : state.phase tid = phase) :
    state.status tid = phase.status := by
  rw [State.status, known]

theorem State.uncommitted_of_phase {phase : Phase Row} (known : state.phase tid = phase)
    (inProgress : phase.status = .inProgress) : state.status tid ≠ .committed := by
  rw [State.status_of_phase known, inProgress]
  nofun

theorem Phase.Active.status_ne_aborted {phase : Phase Row} (active : phase.Active) :
    phase.status ≠ .aborted := by
  cases phase <;> first | exact active.elim | simp [Phase.status]

variable [DecidableEq Tid] {program : Program Tid Row Key}

/-!
## Frames
-/

namespace State

@[simp] theorem phase_move_self (phase : Phase Row) : (state.move tid phase).phase tid = phase := by
  simp only [move, Function.update_self]

theorem phase_move_ne (phase : Phase Row) {other : Tid} (distinct : other ≠ tid) :
    (state.move tid phase).phase other = state.phase other := by
  simp only [move, Function.update_of_ne distinct]

/-- What holds of the phase of `tid` and of those of the others before. -/
theorem forall_phase_move {phase : Phase Row} (holds : Tid → Phase Row → Prop)
    (own : holds tid phase) (others : ∀ other, other ≠ tid → holds other (state.phase other))
    (other : Tid) : holds other ((state.move tid phase).phase other) := by
  by_cases same : other = tid
  · rw [same, phase_move_self]
    exact own
  · rw [phase_move_ne phase same]
    exact others other same

theorem status_move_self (phase : Phase Row) : (state.move tid phase).status tid = phase.status := by
  rw [status, phase_move_self]

theorem status_move_ne (phase : Phase Row) {other : Tid} (distinct : other ≠ tid) :
    (state.move tid phase).status other = state.status other := by
  rw [status, status, phase_move_ne phase distinct]

/-- A transaction that neither is nor becomes committed does not change what
others see. -/
theorem committed_move_iff {phase : Phase Row} (before : state.status tid ≠ .committed)
    (after : phase.status ≠ .committed) (other : Tid) :
    (state.move tid phase).status other = .committed ↔ state.status other = .committed := by
  by_cases own : other = tid
  · rw [own, status_move_self]
    simp only [before, after]
  · rw [status_move_ne phase own]

end State

/-!
## What a step can do
-/

/-- The states that an event of `tid`, short of a commit, can lead to. -/
inductive Effect (state : State Tid Row) (tid : Tid) : Event Tid → State Tid Row → Prop where
  | move {event : Event Tid} (phase : Phase Row) (after : phase.status ≠ .committed)
      (noDelete : ∀ other, event ≠ .delete other)
      (active : phase.Active → (state.phase tid).Active) :
      Effect state tid event (state.move tid phase)
  | delete (seen : List Nat) :
      Effect state tid (.delete tid)
        { state.move tid (.deleting seen) with seen := Function.update state.seen tid seen }
  | mark {position : Nat} {version : Version Tid Row} (todo : List Nat)
      (active : (state.phase tid).Active) (found : state.heap[position]? = some version)
      (free : version.deletable state.status = .free) :
      Effect state tid (.deleteRow tid position)
        { state.move tid (.deleting todo) with heap := markDeleted tid position state.heap }
  | append (row : Row) (todo : List Row) (active : (state.phase tid).Active) :
      Effect state tid (.insertRow tid)
        { state.move tid (.inserting todo) with
          heap := state.heap ++ [{ row, writer := some tid }] }

theorem step_effect [DecidableEq Key] {event : Event Tid}
    (stepped : (machine program).step state event = some next)
    (noCommit : ∀ tid, event ≠ .commit tid) :
    state.status event.tid ≠ .committed ∧ Effect state event.tid event next := by
  cases event with
  | begin tid =>
      simp only [machine, State.begin] at stepped
      split at stepped
      · rename_i phase
        split at stepped
        · cases stepped
          exact ⟨State.uncommitted_of_phase phase rfl, .move .begun (by simp [Phase.status]) (by simp) False.elim⟩
        · cases stepped
      · cases stepped
  | delete tid =>
      simp only [machine, State.delete] at stepped
      split at stepped
      · rename_i phase
        cases stepped
        exact ⟨State.uncommitted_of_phase phase rfl, .delete _⟩
      · cases stepped
  | deleteRow tid position =>
      simp only [machine, State.deleteRow] at stepped
      split at stepped
      · rename_i todo phase
        have active : (state.phase tid).Active := by rw [phase]; trivial
        split at stepped
        · split at stepped
          · cases stepped
          · rename_i version found
            split at stepped
            · rename_i free
              cases stepped
              exact ⟨State.uncommitted_of_phase phase rfl, .mark _ active found free⟩
            · cases stepped
            · cases stepped
              exact ⟨State.uncommitted_of_phase phase rfl,
                .move _ (by simp [Phase.status]) (by simp) fun _ => active⟩
        · cases stepped
      · cases stepped
  | insert tid =>
      simp only [machine, State.insert] at stepped
      split at stepped
      · rename_i phase
        have active : (state.phase tid).Active := by rw [phase]; trivial
        split at stepped
        · cases stepped
          exact ⟨State.uncommitted_of_phase phase rfl,
            .move .failed (by simp [Phase.status]) (by simp) fun _ => active⟩
        · cases stepped
          exact ⟨State.uncommitted_of_phase phase rfl, .move _ (by simp [Phase.status]) (by simp) fun _ => active⟩
      · cases stepped
  | insertRow tid =>
      simp only [machine, State.insertRow] at stepped
      split at stepped
      · rename_i row todo phase
        have active : (state.phase tid).Active := by rw [phase]; trivial
        split at stepped
        · cases stepped
          exact ⟨State.uncommitted_of_phase phase rfl, .append row todo active⟩
        · cases stepped
        · cases stepped
          exact ⟨State.uncommitted_of_phase phase rfl,
            .move .failed (by simp [Phase.status]) (by simp) fun _ => active⟩
      · cases stepped
  | commit tid => exact absurd rfl (noCommit tid)
  | rollback tid =>
      have aborts (uncommitted : state.status tid ≠ .committed) :
          state.status tid ≠ .committed ∧
            Effect state tid (.rollback tid) (state.move tid .aborted) :=
        ⟨uncommitted, .move .aborted (by simp [Phase.status]) (by simp) False.elim⟩
      simp only [machine, State.rollback] at stepped
      split at stepped
      · rename_i phase
        cases stepped
        exact aborts (State.uncommitted_of_phase phase rfl)
      · rename_i todo phase
        cases stepped
        exact aborts (State.uncommitted_of_phase phase rfl)
      · rename_i todo phase
        cases stepped
        exact aborts (State.uncommitted_of_phase phase rfl)
      · rename_i phase
        cases stepped
        exact aborts (State.uncommitted_of_phase phase rfl)
      · cases stepped

theorem State.commit_eq_some : state.commit tid = some next ↔
    state.phase tid = .inserting [] ∧
      next = { state.move tid .committed with commits := state.commits ++ [tid] } := by
  unfold State.commit
  split
  · rename_i phase
    simp [phase, eq_comm]
  · rename_i other
    simp only [reduceCtorEq, false_iff, not_and]
    intro phase
    exact absurd phase other

theorem frame_step [DecidableEq Key] {event : Event Tid}
    (stepped : (machine program).step state event = some next) {other : Tid}
    (foreign : other ≠ event.tid) :
    next.phase other = state.phase other ∧ next.seen other = state.seen other := by
  by_cases isCommit : ∃ tid, event = .commit tid
  · obtain ⟨tid, rfl⟩ := isCommit
    obtain ⟨_, rfl⟩ := State.commit_eq_some.mp stepped
    exact ⟨State.phase_move_ne _ foreign, rfl⟩
  · obtain ⟨_, effect⟩ := step_effect stepped (not_exists.mp isCommit)
    generalize event.tid = subject at effect foreign
    cases effect with
    | move phase => exact ⟨State.phase_move_ne phase foreign, rfl⟩
    | delete seen => exact ⟨State.phase_move_ne _ foreign, Function.update_of_ne foreign _ _⟩
    | mark todo => exact ⟨State.phase_move_ne _ foreign, rfl⟩
    | append row todo => exact ⟨State.phase_move_ne _ foreign, rfl⟩

theorem seen_step [DecidableEq Key] {event : Event Tid}
    (stepped : (machine program).step state event = some next)
    (noDelete : event ≠ .delete tid) : next.seen tid = state.seen tid := by
  by_cases isCommit : ∃ other, event = .commit other
  · obtain ⟨other, rfl⟩ := isCommit
    obtain ⟨_, rfl⟩ := State.commit_eq_some.mp stepped
    rfl
  · obtain ⟨_, effect⟩ := step_effect stepped (not_exists.mp isCommit)
    generalize event.tid = subject at effect
    cases effect with
    | move phase => rfl
    | delete seen =>
        have foreign : tid ≠ subject := by
          intro same
          exact noDelete (congrArg Event.delete same.symm)
        exact Function.update_of_ne foreign _ _
    | mark todo => rfl
    | append row todo => rfl

theorem active_step [DecidableEq Key] {event : Event Tid}
    (stepped : (machine program).step state event = some next)
    (noDelete : event ≠ .delete tid) (active : (next.phase tid).Active) :
    (state.phase tid).Active := by
  by_cases isCommit : ∃ other, event = .commit other
  · obtain ⟨other, rfl⟩ := isCommit
    obtain ⟨phase, rfl⟩ := State.commit_eq_some.mp stepped
    by_cases own : tid = other
    · rw [own, phase]
      trivial
    · simp only [State.phase_move_ne _ own] at active
      exact active
  · obtain ⟨_, effect⟩ := step_effect stepped (not_exists.mp isCommit)
    have frame (foreign : tid ≠ event.tid) := (frame_step stepped foreign).1
    generalize event.tid = subject at effect frame
    by_cases own : tid = subject
    · subst own
      cases effect with
      | move phase after noDelete activeBefore =>
          rw [State.phase_move_self] at active
          exact activeBefore active
      | delete seen => exact absurd rfl noDelete
      | mark todo activeBefore => exact activeBefore
      | append row todo activeBefore => exact activeBefore
    · rw [← frame own]
      exact active

/-!
## Bookkeeping
-/

structure Sound (program : Program Tid Row Key) (state : State Tid Row) : Prop where
  unseen : ∀ tid, (state.phase tid).Opening → state.seen tid = []
  unvisited_seen : ∀ tid, ∀ position ∈ (state.phase tid).unvisited, position ∈ state.seen tid
  seen_settled : ∀ tid, ∀ position ∈ state.seen tid,
    ∃ version, state.heap[position]? = some version ∧ version.Settled state.status
  deleter_saw : ∀ tid position version, state.heap[position]? = some version →
    version.deleter = some tid → position ∈ state.seen tid
  deleted : ∀ tid, (state.phase tid).Active → ∀ position ∈ state.seen tid,
    position ∉ (state.phase tid).unvisited → ∀ version, state.heap[position]? = some version →
      version.deleter = some tid ∨ version.Dead state.status
  wrote : ∀ tid, (state.phase tid).Wrote (program.rows tid) (written tid state.heap)
  distinct : ∀ tid, ((written tid state.heap).map program.key).Nodup
  /-- A DELETE sees the initial rows, and another transaction's as a whole. -/
  whole : ∀ tid, (state.phase tid).Active → ∀ position version,
    state.heap[position]? = some version → version.Live state.status →
    (version.writer = none ∨ ∃ other ∈ state.seen tid, ∃ seen, state.heap[other]? = some seen ∧
      seen.writer = version.writer) →
    position ∈ state.seen tid
  mem_commits_iff : ∀ tid, tid ∈ state.commits ↔ state.phase tid = .committed

theorem Sound.initial (table : List Row) : Sound program (initial table : State Tid Row) where
  unseen := fun _ _ => rfl
  unvisited_seen := by
    intro tid position unvisited
    cases unvisited
  seen_settled := by
    intro tid position seen
    cases seen
  deleter_saw := by
    intro tid position version found deleter
    simp only [Replacement.initial, List.getElem?_map, Option.map_eq_some_iff] at found
    obtain ⟨row, _, rfl⟩ := found
    cases deleter
  deleted := by
    intro tid active
    cases active
  wrote := by
    intro tid
    simp [Replacement.initial, Phase.Wrote, written]
  distinct := by
    intro tid
    have unwritten : written tid (Replacement.initial table : State Tid Row).heap = [] := by
      simp [Replacement.initial, written]
    rw [unwritten]
    exact List.nodup_nil
  whole := by
    intro tid active
    cases active
  mem_commits_iff := by
    intro tid
    simp [Replacement.initial]

/-- What the DELETE of a transaction has visited is marked or was dead. -/
def State.DeletedBy (state : State Tid Row) (tid : Tid) (phase : Phase Row) : Prop :=
  phase.Active → ∀ position ∈ state.seen tid, position ∉ phase.unvisited →
    ∀ version, state.heap[position]? = some version →
      version.deleter = some tid ∨ version.Dead state.status

theorem Sound.move (sound : Sound program state) {phase : Phase Row}
    (before : state.status tid ≠ .committed) (after : phase.status ≠ .committed)
    (unseen : phase.Opening → state.seen tid = [])
    (unvisited : ∀ position ∈ phase.unvisited, position ∈ state.seen tid)
    (active : phase.Active → (state.phase tid).Active)
    (deleted : phase.Active → ∀ position ∈ state.seen tid, position ∉ phase.unvisited →
      ∀ version, state.heap[position]? = some version →
        version.deleter = some tid ∨ version.Dead state.status)
    (wrote : phase.Wrote (program.rows tid) (written tid state.heap)) :
    Sound program (state.move tid phase) := by
  have same := State.committed_move_iff before after
  refine ⟨?_, ?_, ?_, sound.deleter_saw, ?_, ?_, sound.distinct, ?_, ?_⟩
  · exact State.forall_phase_move (fun other phase => phase.Opening → state.seen other = [])
      unseen fun other _ => sound.unseen other
  · exact State.forall_phase_move
      (fun other phase => ∀ position ∈ phase.unvisited, position ∈ state.seen other)
      unvisited fun other _ => sound.unvisited_seen other
  · intro other position seen
    obtain ⟨version, found, settled⟩ := sound.seen_settled other position seen
    exact ⟨version, found, (Version.settled_congr same).mpr settled⟩
  · intro other isActive position seen visited version found
    rw [Version.dead_congr same]
    exact State.forall_phase_move state.DeletedBy deleted (fun other _ => sound.deleted other)
      other isActive position seen visited version found
  · exact State.forall_phase_move
      (fun other phase => phase.Wrote (program.rows other) (written other state.heap))
      wrote fun other _ => sound.wrote other
  · intro other isActive position version found live
    rw [Version.live_congr same] at live
    have wasActive : (state.phase other).Active :=
      State.forall_phase_move (fun other phase => phase.Active → (state.phase other).Active)
        active (fun _ _ => id) other isActive
    exact sound.whole other wasActive position version found live
  · apply State.forall_phase_move fun other phase => other ∈ state.commits ↔ phase = .committed
    · rw [sound.mem_commits_iff]
      constructor
      · intro committed
        exact absurd (by rw [State.status, committed]; rfl) before
      · intro committed
        exact absurd (by rw [committed]; rfl) after
    · exact fun other _ => sound.mem_commits_iff other

/-!
## One step
-/

theorem Sound.begin (sound : Sound program state) (stepped : state.begin program tid = some next) :
    Sound program next := by
  unfold State.begin at stepped
  split at stepped
  · rename_i phase
    split at stepped
    · cases stepped
      refine sound.move ?_ ?_ ?_ ?_ ?_ ?_ ?_
      · exact State.uncommitted_of_phase phase rfl
      · simp [Phase.status]
      · intro _
        exact sound.unseen tid (by rw [phase]; trivial)
      · simp [Phase.unvisited]
      · exact False.elim
      · exact False.elim
      · have wrote := sound.wrote tid
        rw [phase] at wrote
        exact wrote
    · cases stepped
  · cases stepped

theorem Sound.insert (sound : Sound program state)
    (stepped : state.insert program tid = some next) : Sound program next := by
  unfold State.insert at stepped
  split at stepped
  · rename_i phase
    have uncommitted := State.uncommitted_of_phase phase rfl
    have isActive : (state.phase tid).Active := by rw [phase]; trivial
    have deleted := sound.deleted tid isActive
    have wrote := sound.wrote tid
    rw [phase] at deleted wrote
    split at stepped
    · cases stepped
      exact sound.move uncommitted (by simp [Phase.status]) False.elim (by simp [Phase.unvisited])
        (fun _ => isActive) (fun _ => deleted) trivial
    · rename_i rows planned
      cases stepped
      refine sound.move uncommitted (by simp [Phase.status]) False.elim (by simp [Phase.unvisited])
        (fun _ => isActive) (fun _ => deleted) ?_
      have unwritten : written tid state.heap = [] := wrote
      rw [unwritten]
      exact planned
  · cases stepped

theorem Sound.rollback (sound : Sound program state)
    (stepped : state.rollback tid = some next) : Sound program next := by
  have aborts (uncommitted : state.status tid ≠ .committed) :
      Sound program (state.move tid .aborted) :=
    sound.move uncommitted (by simp [Phase.status]) False.elim (by simp [Phase.unvisited])
      False.elim False.elim trivial
  unfold State.rollback at stepped
  split at stepped
  · rename_i phase
    cases stepped
    exact aborts (State.uncommitted_of_phase phase rfl)
  · rename_i todo phase
    cases stepped
    exact aborts (State.uncommitted_of_phase phase rfl)
  · rename_i todo phase
    cases stepped
    exact aborts (State.uncommitted_of_phase phase rfl)
  · rename_i phase
    cases stepped
    exact aborts (State.uncommitted_of_phase phase rfl)
  · cases stepped

/-- What a DELETE sees as it starts is the committed table. -/
theorem Sound.mem_snapshot_iff (sound : Sound program state) (phase : state.phase tid = .begun)
    {position : Nat} : position ∈ snapshot state.status tid state.heap ↔
      ∃ version, state.heap[position]? = some version ∧ version.Live state.status := by
  have unseen : state.seen tid = [] := sound.unseen tid (by rw [phase]; trivial)
  have unwritten := sound.wrote tid
  rw [phase] at unwritten
  rw [mem_snapshot]
  refine exists_congr fun version => and_congr_right fun found => ?_
  apply Version.visibleTo_iff_live (writer_ne_of_written_nil unwritten found)
  intro own
  have saw := sound.deleter_saw tid position version found own
  rw [unseen] at saw
  cases saw

theorem Sound.delete (sound : Sound program state) (stepped : state.delete tid = some next) :
    Sound program next := by
  unfold State.delete at stepped
  split at stepped
  · rename_i phase
    cases stepped
    have uncommitted := State.uncommitted_of_phase phase rfl
    have unwritten := sound.wrote tid
    rw [phase] at unwritten
    have same := @State.committed_move_iff _ _ state tid _
      (.deleting (snapshot state.status tid state.heap)) uncommitted (by simp [Phase.status])
    refine ⟨?_, ?_, ?_, ?_, ?_, ?_, sound.distinct, ?_, ?_⟩
    · intro other opening
      by_cases own : other = tid
      · rw [own] at opening
        simp only [State.phase_move_self, Phase.Opening] at opening
      · simp only [State.phase_move_ne _ own] at opening
        simp only [Function.update_of_ne own]
        exact sound.unseen other opening
    · intro other
      by_cases own : other = tid
      · rw [own]
        simp only [State.phase_move_self, Function.update_self, Phase.unvisited]
        exact fun _ seen => seen
      · simp only [State.phase_move_ne _ own, Function.update_of_ne own]
        exact sound.unvisited_seen other
    · intro other position seen
      have known : ∃ version, state.heap[position]? = some version ∧
          version.Settled state.status := by
        by_cases own : other = tid
        · rw [own] at seen
          simp only [Function.update_self] at seen
          obtain ⟨version, found, live⟩ := (sound.mem_snapshot_iff phase).mp seen
          exact ⟨version, found, live.1⟩
        · simp only [Function.update_of_ne own] at seen
          exact sound.seen_settled other position seen
      obtain ⟨version, found, settled⟩ := known
      exact ⟨version, found, (Version.settled_congr same).mpr settled⟩
    · intro other position version found deleter
      have saw := sound.deleter_saw other position version found deleter
      by_cases own : other = tid
      · rw [own, sound.unseen tid (by rw [phase]; trivial)] at saw
        cases saw
      · simp only [Function.update_of_ne own]
        exact saw
    · intro other active position seen visited version found
      by_cases own : other = tid
      · rw [own] at seen visited
        simp only [Function.update_self] at seen
        simp only [State.phase_move_self, Phase.unvisited] at visited
        exact absurd seen visited
      · simp only [State.phase_move_ne _ own, Function.update_of_ne own] at active seen visited
        refine (sound.deleted other active position seen visited version found).imp_right ?_
        exact (Version.dead_congr same).mpr
    · apply State.forall_phase_move fun other phase =>
        phase.Wrote (program.rows other) (written other state.heap)
      · exact unwritten
      · exact fun other _ => sound.wrote other
    · intro other active position version found live origin
      have wasLive := (Version.live_congr same).mp live
      by_cases own : other = tid
      · rw [own]
        simp only [Function.update_self]
        exact (sound.mem_snapshot_iff phase).mpr ⟨version, found, wasLive⟩
      · simp only [State.phase_move_ne _ own, Function.update_of_ne own] at active origin ⊢
        exact sound.whole other active position version found wasLive origin
    · apply State.forall_phase_move fun other phase => other ∈ state.commits ↔ phase = .committed
      · simp [sound.mem_commits_iff, phase]
      · exact fun other _ => sound.mem_commits_iff other
  · cases stepped

theorem Sound.mark (sound : Sound program state) (uncommitted : state.status tid ≠ .committed)
    {position : Nat} (seen : position ∈ state.seen tid) {version : Version Tid Row}
    (found : state.heap[position]? = some version)
    (free : version.deletable state.status = .free) :
    Sound program { state with heap := markDeleted tid position state.heap } := by
  have aborted := Version.deletable_eq_free.mp free
  have notDead : ¬ version.Dead state.status := by
    intro dead
    obtain ⟨deleter, member, committed⟩ := dead
    rw [aborted deleter member] at committed
    cases committed
  have origin {other : Nat} {current : Version Tid Row}
      (marked : (markDeleted tid position state.heap)[other]? = some current) :
      ∃ before, state.heap[other]? = some before ∧ current.writer = before.writer ∧
        (current.Dead state.status ↔ before.Dead state.status) ∧
        (other = position ∧ current.deleter = some tid ∨ current.deleter = before.deleter) := by
    obtain ⟨before, foundBefore, _, writer, here | elsewhere⟩ := of_getElem?_markDeleted marked
    · obtain ⟨rfl, deleter⟩ := here
      rw [found] at foundBefore
      cases foundBefore
      have current_not_dead := Version.not_dead_of_deleter uncommitted deleter
      exact ⟨version, found, writer, iff_of_false current_not_dead notDead, .inl ⟨rfl, deleter⟩⟩
    · exact ⟨before, foundBefore, writer, Version.dead_of_deleter elsewhere.2, .inr elsewhere.2⟩
  refine ⟨sound.unseen, sound.unvisited_seen, ?_, ?_, ?_, ?_, ?_, ?_, sound.mem_commits_iff⟩
  · intro other otherPosition saw
    obtain ⟨before, foundBefore, settled⟩ := sound.seen_settled other otherPosition saw
    simp only [getElem?_markDeleted, foundBefore, Option.map_some]
    refine ⟨_, rfl, ?_⟩
    refine (Version.settled_of_writer ?_).mp settled
    split <;> rfl
  · intro other otherPosition current marked deleter
    obtain ⟨before, foundBefore, _, _, here | same⟩ := origin marked
    · obtain ⟨rfl, own⟩ := here
      rw [own, Option.some.injEq] at deleter
      rw [← deleter]
      exact seen
    · exact sound.deleter_saw other otherPosition before foundBefore (same ▸ deleter)
  · intro other active otherPosition saw visited current marked
    obtain ⟨before, foundBefore, _, dead, here | same⟩ := origin marked
    · obtain ⟨rfl, own⟩ := here
      rw [found] at foundBefore
      cases foundBefore
      -- another transaction's mark would have to be an aborted one
      rcases sound.deleted other active _ saw visited version found with deleter | isDead
      · exact absurd (aborted other (Option.mem_def.mpr deleter)) active.status_ne_aborted
      · exact absurd isDead notDead
    · rw [same]
      exact (sound.deleted other active otherPosition saw visited before foundBefore).imp_right
        dead.mpr
  · intro other
    simp only [written_markDeleted]
    exact sound.wrote other
  · intro other
    simp only [written_markDeleted]
    exact sound.distinct other
  · intro other active otherPosition current marked live related
    obtain ⟨before, foundBefore, writer, dead, _⟩ := origin marked
    have wasLive : before.Live state.status :=
      ⟨(Version.settled_of_writer writer).mp live.1, fun isDead => live.2 (dead.mpr isDead)⟩
    refine sound.whole other active otherPosition before foundBefore wasLive ?_
    rw [← writer]
    refine related.imp_right ?_
    intro another
    obtain ⟨witness, saw, current, markedWitness, sameWriter⟩ := another
    obtain ⟨beforeWitness, foundWitness, writerWitness, _⟩ := origin markedWitness
    exact ⟨witness, saw, beforeWitness, foundWitness, writerWitness.symm.trans sameWriter⟩

theorem Sound.deleteRow {position : Nat} (sound : Sound program state)
    (stepped : state.deleteRow tid position = some next) : Sound program next := by
  unfold State.deleteRow at stepped
  split at stepped
  · rename_i todo phase
    have uncommitted := State.uncommitted_of_phase phase rfl
    have isActive : (state.phase tid).Active := by rw [phase]; trivial
    have unwritten := sound.wrote tid
    have unvisited := sound.unvisited_seen tid
    have deleted := sound.deleted tid isActive
    rw [phase] at unwritten unvisited deleted
    have unvisitedLater : ∀ other ∈ todo.erase position, other ∈ state.seen tid :=
      fun other member => unvisited other (List.mem_of_mem_erase member)
    split at stepped
    · rename_i isTodo
      split at stepped
      · cases stepped
      · rename_i version found
        split at stepped
        · rename_i free
          cases stepped
          have marked := sound.mark uncommitted (unvisited position isTodo) found free
          refine marked.move uncommitted (by simp [Phase.status]) False.elim unvisitedLater
            (fun _ => isActive) ?_ ?_
          · intro _ other seen visited current foundCurrent
            have markedVisited := marked.deleted tid isActive other seen
            by_cases here : other = position
            · subst here
              obtain ⟨_, _, _, _, own | elsewhere⟩ := of_getElem?_markDeleted foundCurrent
              · exact .inl own.2
              · exact absurd rfl elsewhere.1
            · refine markedVisited ?_ current foundCurrent
              simp only [phase]
              intro still
              exact visited ((List.mem_erase_of_ne here).mpr still)
          · simp only [written_markDeleted]
            exact unwritten
        · cases stepped
        · rename_i gone
          cases stepped
          refine sound.move uncommitted (by simp [Phase.status]) False.elim unvisitedLater
            (fun _ => isActive) ?_ unwritten
          intro _ other seen visited current foundCurrent
          by_cases here : other = position
          · rw [here, found] at foundCurrent
            cases foundCurrent
            exact .inr (Version.deletable_eq_gone.mp gone)
          · refine deleted other seen ?_ current foundCurrent
            intro still
            exact visited ((List.mem_erase_of_ne here).mpr still)
    · cases stepped
  · cases stepped

/-- Rows that a transaction in progress appends are nobody's concern yet. -/
theorem Sound.append (sound : Sound program state) (uncommitted : state.status tid ≠ .committed)
    {row : Row} {todo : List Row} (phase : state.phase tid = .inserting (row :: todo))
    (fresh : program.key row ∉ (written tid state.heap).map program.key) :
    Sound program { state.move tid (.inserting todo) with
      heap := state.heap ++ [{ row, writer := some tid }] } := by
  have isActive : (state.phase tid).Active := by rw [phase]; trivial
  have same := @State.committed_move_iff _ _ state tid _ (.inserting todo) uncommitted
    (by simp [Phase.status])
  have old {position : Nat} {version : Version Tid Row}
      (inside : position < state.heap.length) :
      (state.heap ++ [{ row, writer := some tid }])[position]? = some version ↔
        state.heap[position]? = some version := by
    rw [List.getElem?_append_left inside]
  have settledInside {other : Tid} {position : Nat} (saw : position ∈ state.seen other) :
      position < state.heap.length := by
    obtain ⟨version, found, _⟩ := sound.seen_settled other position saw
    exact (List.getElem?_eq_some_iff.mp found).1
  have cases_found {position : Nat} {version : Version Tid Row}
      (found : (state.heap ++ [{ row, writer := some tid }])[position]? = some version) :
      state.heap[position]? = some version ∨ version = { row, writer := some tid } := by
    rcases Nat.lt_or_ge position state.heap.length with inside | outside
    · exact .inl ((old inside).mp found)
    · right
      rw [List.getElem?_append_right outside] at found
      exact List.mem_singleton.mp (List.mem_of_getElem? found)
  have wrote := sound.wrote tid
  have deletedOwn := sound.deleted tid isActive
  rw [phase] at wrote deletedOwn
  have ownWritten : written tid [({ row, writer := some tid } : Version Tid Row)] = [row] := by
    simp [written]
  have othersUnwritten {other : Tid} (foreign : other ≠ tid) :
      written other [({ row, writer := some tid } : Version Tid Row)] = [] := by
    simp [written, Ne.symm foreign]
  have activeBefore : ∀ other, ((state.move tid (.inserting todo)).phase other).Active →
      (state.phase other).Active :=
    State.forall_phase_move (fun other phase => phase.Active → (state.phase other).Active)
      (fun _ => isActive) fun _ _ => id
  refine ⟨?_, ?_, ?_, ?_, ?_, ?_, ?_, ?_, ?_⟩
  · exact State.forall_phase_move (fun other phase => phase.Opening → state.seen other = [])
      False.elim fun other _ => sound.unseen other
  · exact State.forall_phase_move
      (fun other phase => ∀ position ∈ phase.unvisited, position ∈ state.seen other)
      (by simp [Phase.unvisited]) fun other _ => sound.unvisited_seen other
  · intro other position saw
    obtain ⟨version, found, settled⟩ := sound.seen_settled other position saw
    exact ⟨version, (old (settledInside saw)).mpr found, (Version.settled_congr same).mpr settled⟩
  · intro other position version found deleter
    rcases cases_found found with before | new
    · exact sound.deleter_saw other position version before deleter
    · rw [new] at deleter
      cases deleter
  · intro other active position saw visited version found
    have before := (old (settledInside saw)).mp found
    refine Or.imp_right (Version.dead_congr same).mpr ?_
    refine State.forall_phase_move state.DeletedBy ?_ ?_ other active position saw visited version
      before
    · exact fun _ => deletedOwn
    · exact fun other _ => sound.deleted other
  · simp only [written_append]
    apply State.forall_phase_move fun other phase => phase.Wrote (program.rows other)
      (written other state.heap ++ written other [{ row, writer := some tid }])
    · rw [ownWritten]
      simpa [Phase.Wrote] using wrote
    · intro other foreign
      rw [othersUnwritten foreign, List.append_nil]
      exact sound.wrote other
  · intro other
    simp only [written_append]
    by_cases own : other = tid
    · subst own
      rw [ownWritten, List.map_append, List.map_singleton, List.nodup_append]
      refine ⟨sound.distinct other, by simp, ?_⟩
      intro key member another isNew same
      rw [List.mem_singleton.mp isNew] at same
      exact fresh (same ▸ member)
    · rw [othersUnwritten own, List.append_nil]
      exact sound.distinct other
  · intro other active position version found live related
    have wasLive := (Version.live_congr same).mp live
    rcases cases_found found with before | new
    · refine sound.whole other (activeBefore other active) position version before wasLive ?_
      refine related.imp_right ?_
      intro another
      obtain ⟨witness, saw, seen, foundWitness, writer⟩ := another
      exact ⟨witness, saw, seen, (old (settledInside saw)).mp foundWitness, writer⟩
    · -- the new row is not live before its transaction commits
      rw [new] at wasLive
      exact absurd (wasLive.1 tid rfl) uncommitted
  · apply State.forall_phase_move fun other phase => other ∈ state.commits ↔ phase = .committed
    · simp [sound.mem_commits_iff, phase]
    · exact fun other _ => sound.mem_commits_iff other

theorem Sound.fresh_of_free [DecidableEq Key] (sound : Sound program state)
    (uncommitted : state.status tid ≠ .committed) {row : Row}
    (free : uniqueCheck program.key state.status tid row state.heap = .free) :
    program.key row ∉ (written tid state.heap).map program.key := by
  intro repeated
  obtain ⟨other, member, sameKey⟩ := List.mem_map.mp repeated
  obtain ⟨version, found, rfl⟩ := List.mem_map.mp member
  obtain ⟨inHeap, isOwn⟩ := List.mem_filter.mp found
  have own : version.writer = some tid := of_decide_eq_true isOwn
  have undeleted : version.deleter = none := by
    cases deleter : version.deleter with
    | none => rfl
    | some deleting =>
        obtain ⟨position, here⟩ := List.mem_iff_getElem?.mp inHeap
        have saw := sound.deleter_saw deleting position version here deleter
        obtain ⟨same, again, settled⟩ := sound.seen_settled deleting position saw
        obtain rfl : version = same := Option.some.inj (here.symm.trans again)
        exact absurd (settled tid own) uncommitted
  have outcome := insertable_of_uniqueCheck_free free inHeap sameKey
  rw [insertable_of_own own undeleted] at outcome
  cases outcome

theorem Sound.insertRow [DecidableEq Key] (sound : Sound program state)
    (stepped : state.insertRow program tid = some next) : Sound program next := by
  unfold State.insertRow at stepped
  split at stepped
  · rename_i row todo phase
    have uncommitted := State.uncommitted_of_phase phase rfl
    have isActive : (state.phase tid).Active := by rw [phase]; trivial
    have deleted := sound.deleted tid isActive
    rw [phase] at deleted
    split at stepped
    · rename_i free
      cases stepped
      exact sound.append uncommitted phase (sound.fresh_of_free uncommitted free)
    · cases stepped
    · cases stepped
      exact sound.move uncommitted (by simp [Phase.status]) False.elim (by simp [Phase.unvisited])
        (fun _ => isActive) (fun _ => deleted) trivial
  · cases stepped

/-!
## Commits
-/

/-- Committing makes work final and undoes nothing. -/
theorem Settled.commit {version : Version Tid Row} (settled : version.Settled state.status) :
    version.Settled (state.move tid .committed).status := by
  intro writer member
  by_cases own : writer = tid
  · rw [own, State.status_move_self]
    rfl
  · rw [State.status_move_ne _ own]
    exact settled writer member

theorem Dead.commit {version : Version Tid Row} (dead : version.Dead state.status) :
    version.Dead (state.move tid .committed).status := by
  obtain ⟨deleter, member, committed⟩ := dead
  refine ⟨deleter, member, ?_⟩
  by_cases own : deleter = tid
  · rw [own, State.status_move_self]
    rfl
  · rw [State.status_move_ne _ own]
    exact committed

theorem writer_of_live_commit {version : Version Tid Row}
    (live : version.Live (state.move tid .committed).status)
    (wasNot : ¬ version.Live state.status) : version.writer = some tid := by
  by_contra foreign
  refine wasNot ⟨?_, fun dead => live.2 (Dead.commit dead)⟩
  intro writer member
  have settled := live.1 writer member
  have distinct : writer ≠ tid := by
    intro own
    rw [own] at member
    exact foreign member
  rw [State.status_move_ne _ distinct] at settled
  exact settled

theorem Sound.commit (sound : Sound program state) (stepped : state.commit tid = some next) :
    Sound program next := by
  obtain ⟨phase, rfl⟩ := State.commit_eq_some.mp stepped
  have uncommitted := State.uncommitted_of_phase phase rfl
  have isActive : (state.phase tid).Active := by rw [phase]; trivial
  have deletedOwn := sound.deleted tid isActive
  have wrote := sound.wrote tid
  rw [phase] at deletedOwn wrote
  refine ⟨?_, ?_, ?_, sound.deleter_saw, ?_, ?_, sound.distinct, ?_, ?_⟩
  · exact State.forall_phase_move (fun other phase => phase.Opening → state.seen other = [])
      False.elim fun other _ => sound.unseen other
  · exact State.forall_phase_move
      (fun other phase => ∀ position ∈ phase.unvisited, position ∈ state.seen other)
      (by simp [Phase.unvisited]) fun other _ => sound.unvisited_seen other
  · intro other position saw
    obtain ⟨version, found, settled⟩ := sound.seen_settled other position saw
    exact ⟨version, found, Settled.commit settled⟩
  · intro other active position saw visited version found
    refine Or.imp_right Dead.commit ?_
    refine State.forall_phase_move state.DeletedBy ?_ ?_ other active position saw visited version
      found
    · exact fun _ => deletedOwn
    · exact fun other _ => sound.deleted other
  · apply State.forall_phase_move fun other phase =>
      phase.Wrote (program.rows other) (written other state.heap)
    · simpa [Phase.Wrote] using wrote
    · exact fun other _ => sound.wrote other
  · intro other active position version found live related
    have wasActive : (state.phase other).Active :=
      State.forall_phase_move (fun other phase => phase.Active → (state.phase other).Active)
        (fun _ => isActive) (fun _ _ => id) other active
    by_cases wasLive : version.Live state.status
    · exact sound.whole other wasActive position version found wasLive related
    · -- nobody's DELETE can have seen a row of this transaction
      have writer := writer_of_live_commit live wasLive
      rcases related with initial | another
      · rw [initial] at writer
        cases writer
      · obtain ⟨witness, saw, seen, foundWitness, sameWriter⟩ := another
        obtain ⟨found', foundAgain, settled⟩ := sound.seen_settled other witness saw
        obtain rfl : found' = seen := Option.some.inj (foundAgain.symm.trans foundWitness)
        exact absurd (settled tid (sameWriter.trans writer)) uncommitted
  · apply State.forall_phase_move fun other phase =>
      other ∈ state.commits ++ [tid] ↔ phase = .committed
    · simp
    · intro other foreign
      rw [List.mem_append, List.mem_singleton, or_iff_left foreign]
      exact sound.mem_commits_iff other

theorem Sound.step [DecidableEq Key] (sound : Sound program state) {event : Event Tid}
    (stepped : (machine program).step state event = some next) : Sound program next := by
  cases event with
  | begin tid => exact sound.begin stepped
  | delete tid => exact sound.delete stepped
  | deleteRow tid position => exact sound.deleteRow stepped
  | insert tid => exact sound.insert stepped
  | insertRow tid => exact sound.insertRow stepped
  | commit tid => exact sound.commit stepped
  | rollback tid => exact sound.rollback stepped

end Replacement
