import BipaNodes.App.Startup
import BipaNodes.Importer.Task
import BipaNodes.Source.Dto
import BipaNodes.Storage.Concurrent

/-!
# The running service

`serve`, the importer task it spawns, the task of each iteration, the `nodes`
table and its readers, as parties that move one at a time in any order.
-/

set_option autoImplicit false

namespace BipaNodes.App

open Domain (Node)
open Importer (ImportError ImportOutcome LoopPhase TaskEnd TaskPhase)
open Source (SourceError Value)
open Storage (Call OrderedByRank SqlxError StorageError TableRow)

/-- What the parties meet with: the answer to each iteration's fetch and the
`now()` of its transaction. -/
structure World where
  answers : Nat → Except SourceError (List Value)
  clock : Nat → Int

def World.fetched (world : World) (iteration : Nat) : Except SourceError (List Node) :=
  (world.answers iteration).map Source.parseRecords

def World.call (world : World) (iteration : Nat) : Call where
  nodes := (world.fetched iteration).toOption.getD []
  importedAt := world.clock iteration

inductive ServePhase where
  | building
  | serving
  /-- The server has ended; the token is about to be cancelled. -/
  | stopping (served : Except String Unit)
  | joining (served : Except String Unit)
  | closing (served : Except String Unit)
  | returned (result : Except AppError Unit)

/-- A call of `list_nodes`, with the commits at the time of its SELECT. -/
inductive Reader where
  | idle
  | selected (rows : List TableRow) (commits : List Nat)
  | answered (result : Except StorageError (List Node)) (commits : List Nat)

structure Service where
  cancelled : Bool := false
  serve : ServePhase := .building
  loop : LoopPhase := .notSpawned
  started : Nat := 0
  tasks : Nat → TaskPhase := fun _ => .unspawned
  table : Replacement.State Nat TableRow := Replacement.initial []
  readers : Nat → Reader := fun _ => .idle
  served : Option (Except String Unit) := none
  /-- Where the loop was when the token was cancelled. -/
  cancelledAt : Option LoopPhase := none
  lateStarts : Nat := 0

inductive Statement where
  | begin
  | delete
  | deleteRow (position : Nat)
  | insert
  | insertRow
  | commit
  deriving DecidableEq, Repr

def Statement.event (iteration : Nat) : Statement → Replacement.Event Nat
  | .begin => .begin iteration
  | .delete => .delete iteration
  | .deleteRow position => .deleteRow iteration position
  | .insert => .insert iteration
  | .insertRow => .insertRow iteration
  | .commit => .commit iteration

inductive ServiceEvent where
  | cancel
  | buildFails (error : SourceError)
  | spawnImporter
  | serverStops (served : Except String Unit)
  | cancelToken
  | joinImporter
  | closePool
  | pollToken
  | pollTick (ready : Bool)
  | spawnImport
  | joinImport
  | log
  | crash
  | fetchReturns (iteration : Nat)
  | execute (iteration : Nat) (statement : Statement)
  /-- An exchange fails, or its reply is lost. -/
  | fails (iteration : Nat) (error : SqlxError)
  | succeeds (iteration : Nat)
  | panics (iteration : Nat) (message : String)
  /-- The server rolls an open transaction back, be it only later. -/
  | rollback (iteration : Nat)
  | select (reader : Nat)
  | deliver (reader : Nat) (delivered : List TableRow)
  | failRead (reader : Nat) (error : SqlxError)

namespace Service

def cancel (state : Service) : Service :=
  { state with
    cancelled := true
    cancelledAt := if state.cancelled then state.cancelledAt else some state.loop }

/-!
## `serve`
-/

/-- `MempoolClient::new(..)?` returns before anything has been spawned. -/
def buildFails (error : SourceError) (state : Service) : Option Service :=
  match state.serve with
  | .building => some { state with serve := .returned (.error (.source error)) }
  | _ => none

def spawnImporter (state : Service) : Option Service :=
  match state.serve with
  | .building => some { state with serve := .serving, loop := .checkToken }
  | _ => none

def serverStops (served : Except String Unit) (state : Service) : Option Service :=
  match state.serve with
  | .serving => some { state with serve := .stopping served, served := some served }
  | _ => none

def cancelToken (state : Service) : Option Service :=
  match state.serve with
  | .stopping served => some { state.cancel with serve := .joining served }
  | _ => none

def joinImporter (state : Service) : Option Service :=
  match state.serve with
  | .joining served =>
      match state.loop with
      | .stopped | .crashed => some { state with serve := .closing served }
      | _ => none
  | _ => none

def closePool (state : Service) : Option Service :=
  match state.serve with
  | .closing served => some { state with serve := .returned (served.mapError .serve) }
  | _ => none

/-!
## `Importer::run`
-/

def pollToken (state : Service) : Option Service :=
  match state.loop with
  | .checkToken =>
      if state.cancelled then
        some { state with loop := .stopped }
      else
        some { state with loop := .checkTick }
  | _ => none

def pollTick (ready : Bool) (state : Service) : Option Service :=
  match state.loop with
  | .checkTick =>
      if ready then
        some { state with loop := .ticked }
      else
        some { state with loop := .checkToken }
  | _ => none

def spawnImport (state : Service) : Option Service :=
  match state.loop with
  | .ticked =>
      some { state with
        loop := .awaiting state.started
        started := state.started + 1
        tasks := Function.update state.tasks state.started .fetching
        lateStarts := if state.cancelled then state.lateStarts + 1 else state.lateStarts }
  | _ => none

def joinImport (state : Service) : Option Service :=
  match state.loop with
  | .awaiting iteration =>
      match state.tasks iteration with
      | .ended taskEnd => some { state with loop := .logging taskEnd.result }
      | _ => none
  | _ => none

def log (state : Service) : Option Service :=
  match state.loop with
  | .logging _ => some { state with loop := .checkToken }
  | _ => none

/-- Awaiting a task does not panic, whatever else the loop does may. -/
def crash (state : Service) : Option Service :=
  match state.loop with
  | .checkToken | .checkTick | .ticked | .logging _ => some { state with loop := .crashed }
  | _ => none

/-!
## `run_once`
-/

def setTask (state : Service) (iteration : Nat) (phase : TaskPhase) : Service :=
  { state with tasks := Function.update state.tasks iteration phase }

def endTask (state : Service) (iteration : Nat) (result : Except ImportError ImportOutcome) :
    Service :=
  state.setTask iteration (.ended (.returned result))

/-- From the fetch to the first exchange with the database. -/
def fetchReturns (world : World) (iteration : Nat) (state : Service) : Option Service :=
  match state.tasks iteration with
  | .fetching =>
      match world.fetched iteration with
      | .error error => some (state.endTask iteration (.error (.source error)))
      | .ok nodes =>
          if nodes.isEmpty then
            some (state.endTask iteration (.error .emptySource))
          else
            match Storage.toColumns nodes with
            | .error error => some (state.endTask iteration (.error (.storage error)))
            | .ok _ => some (state.setTask iteration .replacing)
  | _ => none

/-- The server only executes what a task under way has sent. It is assumed that
what it has not executed when the task gives up, be it a COMMIT, never is. -/
def execute (world : World) (iteration : Nat) (statement : Statement) (state : Service) :
    Option Service :=
  match state.tasks iteration with
  | .replacing =>
      ((Storage.database world.call).step state.table (statement.event iteration)).map fun table =>
        { state with table }
  | _ => none

def fails (iteration : Nat) (error : SqlxError) (state : Service) : Option Service :=
  match state.tasks iteration with
  | .replacing => some (state.endTask iteration (.error (.storage (.database error))))
  | _ => none

def succeeds (world : World) (iteration : Nat) (state : Service) : Option Service :=
  match state.tasks iteration, state.table.phase iteration with
  | .replacing, .committed =>
      some (state.endTask iteration (.ok { imported := (world.call iteration).nodes.length }))
  | _, _ => none

def panics (iteration : Nat) (message : String) (state : Service) : Option Service :=
  match state.tasks iteration with
  | .fetching | .replacing => some (state.setTask iteration (.ended (.panicked message)))
  | _ => none

def rollback (iteration : Nat) (state : Service) : Option Service :=
  (state.table.rollback iteration).map fun table => { state with table }

/-!
## `list_nodes`
-/

def setReader (state : Service) (reader : Nat) (phase : Reader) : Service :=
  { state with readers := Function.update state.readers reader phase }

def select (reader : Nat) (state : Service) : Option Service :=
  match state.readers reader with
  | .idle =>
      some (state.setReader reader (.selected state.table.liveRows state.table.commits))
  | _ => none

def deliver (reader : Nat) (delivered : List TableRow) (state : Service) : Option Service :=
  match state.readers reader with
  | .selected rows commits =>
      if OrderedByRank rows delivered then
        some (state.setReader reader (.answered (Storage.listNodes (.ok delivered)) commits))
      else
        none
  | _ => none

def failRead (reader : Nat) (error : SqlxError) (state : Service) : Option Service :=
  match state.readers reader with
  | .selected _ commits =>
      some (state.setReader reader (.answered (Storage.listNodes (.error error)) commits))
  | _ => none

end Service

def service (world : World) : Machine Service ServiceEvent where
  step state
    | .cancel => some state.cancel
    | .buildFails error => state.buildFails error
    | .spawnImporter => state.spawnImporter
    | .serverStops served => state.serverStops served
    | .cancelToken => state.cancelToken
    | .joinImporter => state.joinImporter
    | .closePool => state.closePool
    | .pollToken => state.pollToken
    | .pollTick ready => state.pollTick ready
    | .spawnImport => state.spawnImport
    | .joinImport => state.joinImport
    | .log => state.log
    | .crash => state.crash
    | .fetchReturns iteration => state.fetchReturns world iteration
    | .execute iteration statement => state.execute world iteration statement
    | .fails iteration error => state.fails iteration error
    | .succeeds iteration => state.succeeds world iteration
    | .panics iteration message => state.panics iteration message
    | .rollback iteration => state.rollback iteration
    | .select reader => state.select reader
    | .deliver reader delivered => state.deliver reader delivered
    | .failRead reader error => state.failRead reader error

end BipaNodes.App
