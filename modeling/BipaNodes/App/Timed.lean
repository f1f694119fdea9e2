import BipaNodes.App.Service
import BipaNodes.Importer.Schedule

/-!
# The service against the clock

The running service with the timer of its importer. Time passes only while the
loop of `Importer::run` is suspended; how long it stays so is left open.
-/

set_option autoImplicit false

namespace BipaNodes.App

open Importer (Import ImportInterval)

structure Timed where
  service : Service := {}
  now : Nanos := 0
  /-- Created by the first poll of the importer task. -/
  ticker : Option (Ticker Nanos) := none
  spawnedAt : Nanos := 0
  /-- Since when the loop has been back at its `select!`. -/
  freeSince : Nanos := 0
  /-- A poll of the `select!` has found neither branch ready since then. -/
  polled : Bool := false
  /-- The ticks so far: their deadlines, and when they completed. -/
  ticks : List (Nanos × Nanos) := []
  imports : List Import := []

inductive TimedEvent where
  | elapse (duration : Nanos)
  | service (event : ServiceEvent)

namespace Timed

/-- The loop awaits something: its first poll, a tick, or a task. -/
def suspended (state : Timed) : Bool :=
  match state.service.loop with
  | .checkToken => state.ticker.isNone || state.polled
  | .checkTick | .ticked | .logging _ => false
  | .notSpawned | .awaiting _ | .stopped | .crashed => true

def elapse (duration : Nanos) (state : Timed) : Option Timed :=
  if state.suspended then some { state with now := state.now + duration } else none

def pollToken (interval : ImportInterval) (service : Service) (state : Timed) : Timed :=
  match state.ticker with
  | some _ => { state with service }
  | none =>
      { state with
        service
        ticker := some (Ticker.starting state.now interval.length)
        freeSince := state.now }

/-- A tick is ready exactly when its deadline has passed. -/
def pollTick (ready : Bool) (service : Service) (state : Timed) : Option Timed :=
  match state.ticker with
  | none => none
  | some ticker =>
      if ticker.deadline ≤ state.now then
        if ready then
          some { state with
            service
            ticker := some (ticker.afterTick Importer.tickTolerance state.now)
            ticks := state.ticks ++ [(ticker.deadline, state.now)] }
        else
          none
      else
        if ready then none else some { state with service, polled := true }

/-- The iteration that is being logged. -/
def finished (state : Timed) : List Import :=
  match state.service.loop, state.ticks.getLast? with
  | .logging result, some (deadline, start) =>
      [{ deadline, start, finish := state.now, logged := Importer.logResult result }]
  | _, _ => []

def log (service : Service) (state : Timed) : Timed :=
  { state with
    service
    freeSince := state.now
    polled := false
    imports := state.imports ++ state.finished }

/-- What a step of the service means for the timer. -/
def follow (interval : ImportInterval) (event : ServiceEvent) (service : Service)
    (state : Timed) : Option Timed :=
  match event with
  | .spawnImporter => some { state with service, spawnedAt := state.now }
  | .pollToken => some (state.pollToken interval service)
  | .pollTick ready => state.pollTick ready service
  | .log => some (state.log service)
  | _ => some { state with service }

end Timed

def timed (interval : ImportInterval) (world : World) : Machine Timed TimedEvent where
  step state
    | .elapse duration => state.elapse duration
    | .service event =>
        ((service world).step state.service event).bind fun next =>
          state.follow interval event next

end BipaNodes.App
