import BipaNodes.Lib.Machine
import BipaNodes.Lib.ReadCommitted
import Mathlib.Logic.Function.Basic

/-!
# Concurrent replacements

Any number of transactions that each delete every row they see, insert rows of
their own and commit, one row at a time and in any interleaving.
-/

set_option autoImplicit false

open ReadCommitted

namespace Replacement

structure Program (Tid Row Key : Type) where
  key : Row → Key
  /-- Whether a transaction is opened at all. -/
  opens : Tid → Bool
  /-- The rows of the INSERT, unless the statement fails before the first. -/
  rows : Tid → Option (List Row)

inductive Phase (Row : Type) where
  | idle
  | begun
  /-- The positions that the DELETE has yet to visit. -/
  | deleting (todo : List Nat)
  /-- The rows that the INSERT has yet to write. -/
  | inserting (todo : List Row)
  /-- A statement has failed; only a rollback is left. -/
  | failed
  | committed
  | aborted
  deriving DecidableEq, Repr

def Phase.status {Row : Type} : Phase Row → Status
  | .committed => .committed
  | .aborted => .aborted
  | _ => .inProgress

structure State (Tid Row : Type) where
  heap : List (Version Tid Row)
  phase : Tid → Phase Row := fun _ => .idle
  seen : Tid → List Nat := fun _ => []
  /-- The committed transactions, in their order. -/
  commits : List Tid := []

inductive Event (Tid : Type) where
  | begin (tid : Tid)
  | delete (tid : Tid)
  | deleteRow (tid : Tid) (position : Nat)
  | insert (tid : Tid)
  | insertRow (tid : Tid)
  | commit (tid : Tid)
  | rollback (tid : Tid)
  deriving DecidableEq, Repr

def Event.tid {Tid : Type} : Event Tid → Tid
  | .begin tid | .delete tid | .deleteRow tid _ | .insert tid | .insertRow tid | .commit tid
  | .rollback tid => tid

variable {Tid Row Key : Type} [DecidableEq Tid] [DecidableEq Key]

def initial (table : List Row) : State Tid Row where
  heap := table.map fun row => { row }

namespace State

def status (state : State Tid Row) (tid : Tid) : Status := (state.phase tid).status

def liveRows (state : State Tid Row) : List Row :=
  ReadCommitted.liveRows state.status state.heap

def move (state : State Tid Row) (tid : Tid) (phase : Phase Row) : State Tid Row :=
  { state with phase := Function.update state.phase tid phase }

def begin (program : Program Tid Row Key) (tid : Tid) (state : State Tid Row) :
    Option (State Tid Row) :=
  match state.phase tid with
  | .idle => if program.opens tid then some (state.move tid .begun) else none
  | _ => none

def delete (tid : Tid) (state : State Tid Row) : Option (State Tid Row) :=
  match state.phase tid with
  | .begun =>
      let seen := snapshot state.status tid state.heap
      some { state.move tid (.deleting seen) with seen := Function.update state.seen tid seen }
  | _ => none

def deleteRow (tid : Tid) (position : Nat) (state : State Tid Row) : Option (State Tid Row) :=
  match state.phase tid with
  | .deleting todo =>
      if position ∈ todo then
        match state.heap[position]? with
        | none => none
        | some version =>
            match version.deletable state.status with
            | .free =>
                some { state.move tid (.deleting (todo.erase position)) with
                  heap := markDeleted tid position state.heap }
            | .locked => none
            | .gone => some (state.move tid (.deleting (todo.erase position)))
      else
        none
  | _ => none

def insert (program : Program Tid Row Key) (tid : Tid) (state : State Tid Row) :
    Option (State Tid Row) :=
  match state.phase tid with
  | .deleting [] =>
      match program.rows tid with
      | none => some (state.move tid .failed)
      | some rows => some (state.move tid (.inserting rows))
  | _ => none

def insertRow (program : Program Tid Row Key) (tid : Tid) (state : State Tid Row) :
    Option (State Tid Row) :=
  match state.phase tid with
  | .inserting (row :: todo) =>
      match uniqueCheck program.key state.status tid row state.heap with
      | .free =>
          some { state.move tid (.inserting todo) with
            heap := state.heap ++ [{ row, writer := some tid }] }
      | .locked => none
      | .duplicate => some (state.move tid .failed)
  | _ => none

def commit (tid : Tid) (state : State Tid Row) : Option (State Tid Row) :=
  match state.phase tid with
  | .inserting [] => some { state.move tid .committed with commits := state.commits ++ [tid] }
  | _ => none

/-- A transaction can end without a commit at any time. -/
def rollback (tid : Tid) (state : State Tid Row) : Option (State Tid Row) :=
  match state.phase tid with
  | .begun | .deleting _ | .inserting _ | .failed => some (state.move tid .aborted)
  | _ => none

end State

def machine (program : Program Tid Row Key) : Machine (State Tid Row) (Event Tid) where
  step state
    | .begin tid => state.begin program tid
    | .delete tid => state.delete tid
    | .deleteRow tid position => state.deleteRow tid position
    | .insert tid => state.insert program tid
    | .insertRow tid => state.insertRow program tid
    | .commit tid => state.commit tid
    | .rollback tid => state.rollback tid

end Replacement
