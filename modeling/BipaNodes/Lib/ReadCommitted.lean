import Mathlib.Data.List.Basic

/-!
# Row versions under READ COMMITTED

A table keeps every version of its rows, marked with the transactions that
wrote and deleted it. What a statement sees, and when it has to wait, depends
on the status of these transactions.
-/

set_option autoImplicit false

namespace ReadCommitted

inductive Status where
  | inProgress
  | committed
  | aborted
  deriving DecidableEq, Repr

/-- A version without a writer has been there from the start. -/
structure Version (Tid Row : Type) where
  row : Row
  writer : Option Tid := none
  deleter : Option Tid := none
  deriving DecidableEq

variable {Tid Row Key : Type}

namespace Version

def Settled (status : Tid → Status) (version : Version Tid Row) : Prop :=
  ∀ writer ∈ version.writer, status writer = .committed

def Dead (status : Tid → Status) (version : Version Tid Row) : Prop :=
  ∃ deleter ∈ version.deleter, status deleter = .committed

/-- The version is part of the committed table. -/
def Live (status : Tid → Status) (version : Version Tid Row) : Prop :=
  version.Settled status ∧ ¬ version.Dead status

/-- A statement of `tid` sees committed work and its own transaction's. -/
def VisibleTo [DecidableEq Tid] (status : Tid → Status) (tid : Tid) (version : Version Tid Row) :
    Prop :=
  (∀ writer ∈ version.writer, writer = tid ∨ status writer = .committed) ∧
    ¬ ∃ deleter ∈ version.deleter, deleter = tid ∨ status deleter = .committed

instance (status : Tid → Status) (version : Version Tid Row) :
    Decidable (version.Settled status) :=
  inferInstanceAs (Decidable (∀ _ ∈ _, _))

instance (status : Tid → Status) (version : Version Tid Row) : Decidable (version.Dead status) :=
  inferInstanceAs (Decidable (∃ _ ∈ _, _))

instance (status : Tid → Status) (version : Version Tid Row) : Decidable (version.Live status) :=
  inferInstanceAs (Decidable (_ ∧ _))

instance [DecidableEq Tid] (status : Tid → Status) (tid : Tid) (version : Version Tid Row) :
    Decidable (version.VisibleTo status tid) :=
  inferInstanceAs (Decidable ((∀ _ ∈ _, _) ∧ ¬ ∃ _ ∈ _, _))

end Version

/-- The committed table. -/
def liveRows (status : Tid → Status) (heap : List (Version Tid Row)) : List Row :=
  (heap.filter fun version => version.Live status).map Version.row

def origins (status : Tid → Status) (heap : List (Version Tid Row)) : List (Option Tid × Row) :=
  (heap.filter fun version => version.Live status).map fun version => (version.writer, version.row)

theorem map_snd_origins (status : Tid → Status) (heap : List (Version Tid Row)) :
    (origins status heap).map Prod.snd = liveRows status heap := by
  simp [origins, liveRows]

def written [DecidableEq Tid] (tid : Tid) (heap : List (Version Tid Row)) : List Row :=
  (heap.filter fun version => version.writer = some tid).map Version.row

/-- Where a statement of `tid` that starts now finds its rows. -/
def snapshot [DecidableEq Tid] (status : Tid → Status) (tid : Tid)
    (heap : List (Version Tid Row)) : List Nat :=
  (List.range heap.length).filter fun position =>
    ∃ version ∈ heap[position]?, version.VisibleTo status tid

/-!
## Conflicts
-/

inductive Deletable where
  | free
  /-- Another transaction is deleting the row; its end decides. -/
  | locked
  /-- Another transaction has deleted the row, which is skipped. -/
  | gone
  deriving DecidableEq, Repr

def Version.deletable (status : Tid → Status) (version : Version Tid Row) : Deletable :=
  match version.deleter with
  | none => .free
  | some deleter =>
      match status deleter with
      | .aborted => .free
      | .inProgress => .locked
      | .committed => .gone

def markDeleted (tid : Tid) (position : Nat) (heap : List (Version Tid Row)) :
    List (Version Tid Row) :=
  heap.modify position fun version => { version with deleter := some tid }

inductive Insertable where
  | free
  /-- A row of the same key waits for the end of another transaction. -/
  | locked
  | duplicate
  deriving DecidableEq, Repr

/-- What a version of the same key means for an insertion by `tid`. -/
def Version.insertable [DecidableEq Tid] (status : Tid → Status) (tid : Tid)
    (version : Version Tid Row) : Insertable :=
  let present :=
    match version.deleter with
    | none => .duplicate
    | some deleter =>
        if deleter = tid then
          .free
        else
          match status deleter with
          | .aborted => .duplicate
          | .inProgress => .locked
          | .committed => .free
  match version.writer with
  | none => present
  | some writer =>
      if writer = tid then
        present
      else
        match status writer with
        | .aborted => .free
        | .inProgress => .locked
        | .committed => present

def uniqueCheck [DecidableEq Tid] [DecidableEq Key] (key : Row → Key) (status : Tid → Status)
    (tid : Tid) (row : Row) (heap : List (Version Tid Row)) : Insertable :=
  let conflicts := (heap.filter fun version => key version.row = key row).map fun version =>
    version.insertable status tid
  if .duplicate ∈ conflicts then
    .duplicate
  else if .locked ∈ conflicts then
    .locked
  else
    .free

/-!
## Rules
-/

section Rules

variable {status : Tid → Status} {tid : Tid} {version : Version Tid Row}
  {heap : List (Version Tid Row)} {position : Nat}

theorem Version.settled_congr {other : Tid → Status}
    (same : ∀ tid, status tid = .committed ↔ other tid = .committed) :
    version.Settled status ↔ version.Settled other := by
  unfold Version.Settled
  simp only [same]

theorem Version.dead_congr {other : Tid → Status}
    (same : ∀ tid, status tid = .committed ↔ other tid = .committed) :
    version.Dead status ↔ version.Dead other := by
  unfold Version.Dead
  simp only [same]

theorem Version.live_congr {other : Tid → Status}
    (same : ∀ tid, status tid = .committed ↔ other tid = .committed) :
    version.Live status ↔ version.Live other := by
  unfold Version.Live
  rw [Version.settled_congr same, Version.dead_congr same]

theorem Version.settled_of_writer {other : Version Tid Row} (same : version.writer = other.writer) :
    version.Settled status ↔ other.Settled status := by
  unfold Version.Settled
  rw [same]

theorem Version.dead_of_deleter {other : Version Tid Row} (same : version.deleter = other.deleter) :
    version.Dead status ↔ other.Dead status := by
  unfold Version.Dead
  rw [same]

theorem Version.not_dead_of_deleter (uncommitted : status tid ≠ .committed)
    (deleter : version.deleter = some tid) : ¬ version.Dead status := by
  intro dead
  obtain ⟨other, member, committed⟩ := dead
  rw [deleter, Option.mem_some_iff] at member
  rw [← member] at committed
  exact uncommitted committed

theorem Version.deletable_eq_free :
    version.deletable status = .free ↔ ∀ deleter ∈ version.deleter, status deleter = .aborted := by
  unfold Version.deletable
  cases version.deleter with
  | none => simp
  | some deleter => cases ended : status deleter <;> simp [ended]

theorem Version.deletable_eq_gone : version.deletable status = .gone ↔ version.Dead status := by
  unfold Version.deletable Version.Dead
  cases version.deleter with
  | none => simp
  | some deleter => cases ended : status deleter <;> simp [ended]

theorem getElem?_markDeleted (other : Nat) :
    (markDeleted tid position heap)[other]? =
      heap[other]?.map fun version =>
        if position = other then { version with deleter := some tid } else version := by
  rw [markDeleted, List.getElem?_modify]
  by_cases same : position = other
  · simp [same]
  · simp [same]

theorem of_getElem?_markDeleted {other : Nat}
    (found : (markDeleted tid position heap)[other]? = some version) :
    ∃ before, heap[other]? = some before ∧ version.row = before.row ∧
      version.writer = before.writer ∧
      (position = other ∧ version.deleter = some tid ∨
        position ≠ other ∧ version.deleter = before.deleter) := by
  rw [getElem?_markDeleted] at found
  obtain ⟨before, foundBefore, rfl⟩ := Option.map_eq_some_iff.mp found
  refine ⟨before, foundBefore, ?_⟩
  by_cases same : position = other
  · rw [if_pos same]
    exact ⟨rfl, rfl, .inl ⟨same, rfl⟩⟩
  · rw [if_neg same]
    exact ⟨rfl, rfl, .inr ⟨same, rfl⟩⟩

/-- Marking a version leaves every view alone that tells neither it nor its
selection by the mark. -/
theorem map_filter_markDeleted {Image : Type} {selects : Version Tid Row → Bool}
    {image : Version Tid Row → Image}
    (blind : ∀ version, heap[position]? = some version →
      selects { version with deleter := some tid } = selects version ∧
        image { version with deleter := some tid } = image version) :
    ((markDeleted tid position heap).filter selects).map image =
      (heap.filter selects).map image := by
  unfold markDeleted
  induction heap generalizing position with
  | nil => rw [List.modify_nil]
  | cons version heap ih =>
      cases position with
      | zero =>
          obtain ⟨selected, same⟩ := blind version rfl
          rw [List.modify_zero_cons, List.filter_cons, List.filter_cons, selected]
          split
          · rw [List.map_cons, List.map_cons, same]
          · rfl
      | succ position =>
          have rest := @ih position blind
          rw [List.modify_succ_cons, List.filter_cons, List.filter_cons]
          split
          · rw [List.map_cons, List.map_cons, rest]
          · exact rest

theorem Version.live_mark (uncommitted : status tid ≠ .committed)
    (free : version.deletable status = .free) :
    ({ version with deleter := some tid } : Version Tid Row).Live status ↔ version.Live status := by
  have stays : ({ version with deleter := some tid } : Version Tid Row).Settled status ↔
      version.Settled status := Version.settled_of_writer rfl
  have notDead : ¬ version.Dead status := by
    rw [← Version.deletable_eq_gone, free]
    simp
  have markedNotDead : ¬ ({ version with deleter := some tid } : Version Tid Row).Dead status :=
    Version.not_dead_of_deleter uncommitted rfl
  unfold Version.Live
  rw [stays]
  simp only [notDead, markedNotDead]

variable [DecidableEq Tid]

theorem mem_snapshot : position ∈ snapshot status tid heap ↔
    ∃ version, heap[position]? = some version ∧ version.VisibleTo status tid := by
  rw [snapshot, List.mem_filter, List.mem_range, decide_eq_true_iff]
  constructor
  · intro seen
    exact seen.2
  · intro visible
    have inside := visible
    obtain ⟨version, found, _⟩ := inside
    exact ⟨(List.getElem?_eq_some_iff.mp found).1, visible⟩

theorem Version.visibleTo_iff_live (unwritten : version.writer ≠ some tid)
    (undeleted : version.deleter ≠ some tid) :
    version.VisibleTo status tid ↔ version.Live status := by
  unfold Version.VisibleTo Version.Live Version.Settled Version.Dead
  cases written : version.writer with
  | none =>
      cases deleted : version.deleter with
      | none => simp
      | some deleter => simp_all
  | some writer =>
      cases deleted : version.deleter with
      | none => simp_all
      | some deleter => simp_all

theorem written_append (rows : List (Version Tid Row)) :
    written tid (heap ++ rows) = written tid heap ++ written tid rows := by
  simp [written]

theorem written_markDeleted (other : Tid) :
    written other (markDeleted tid position heap) = written other heap :=
  map_filter_markDeleted fun _ _ => ⟨rfl, rfl⟩

theorem writer_ne_of_written_nil (unwritten : written tid heap = [])
    (found : heap[position]? = some version) : version.writer ≠ some tid := by
  intro own
  have member : version ∈ heap.filter fun version => version.writer = some tid :=
    List.mem_filter.mpr ⟨List.mem_of_getElem? found, decide_eq_true own⟩
  rw [List.map_eq_nil_iff.mp unwritten] at member
  cases member

/-- Where the committed table consists of one transaction's rows, it is what
this transaction has written. -/
theorem liveRows_eq_written
    (own : ∀ version ∈ heap, version.Live status ↔ version.writer = some tid) :
    liveRows status heap = written tid heap := by
  unfold liveRows written
  congr 1
  apply List.filter_congr
  intro version member
  rw [decide_eq_decide]
  exact own version member

theorem insertable_of_own (own : version.writer = some tid) (undeleted : version.deleter = none) :
    version.insertable status tid = .duplicate := by
  simp [Version.insertable, own, undeleted]

theorem insertable_of_uniqueCheck_free [DecidableEq Key] {key : Row → Key} {row : Row}
    (free : uniqueCheck key status tid row heap = .free) (member : version ∈ heap)
    (sameKey : key version.row = key row) : version.insertable status tid = .free := by
  have conflict : version.insertable status tid ∈
      (heap.filter fun version => key version.row = key row).map fun version =>
        version.insertable status tid :=
    List.mem_map_of_mem (List.mem_filter.mpr ⟨member, decide_eq_true sameKey⟩)
  unfold uniqueCheck at free
  simp only at free
  split at free
  · cases free
  · rename_i noDuplicate
    split at free
    · cases free
    · rename_i notLocked
      cases outcome : version.insertable status tid with
      | free => rfl
      | locked => exact absurd (outcome ▸ conflict) notLocked
      | duplicate => exact absurd (outcome ▸ conflict) noDuplicate

end Rules

end ReadCommitted
