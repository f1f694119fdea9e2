import BipaNodes.App.Service
import BipaNodes.Config.Load

/-!
# The process

`main` and the task that turns a signal into a cancellation. Startup and service
run one after the other against the same token.
-/

set_option autoImplicit false

namespace BipaNodes.App

open Config (ConfigError Env Parsers)

inductive ExitCode where
  | success
  | failure
  deriving DecidableEq, Repr

inductive MainError where
  | logging (cause : String)
  | config (error : ConfigError)
  | bind (cause : String)
  | app (error : AppError)
  deriving DecidableEq, Repr

def exitCode : Except MainError Unit → ExitCode
  | .ok () => .success
  | .error _ => .failure

inductive Signal where
  /-- SIGINT, by Ctrl+C. -/
  | interrupt
  /-- SIGTERM, by `docker stop`. -/
  | terminate
  deriving DecidableEq, Repr

/-- One of the futures that `cancel_on_shutdown_signal` waits for. -/
inductive Listener where
  | unpolled
  | listening
  /-- The handler could not be installed; the future is pending for ever. -/
  | deaf
  deriving DecidableEq, Repr

/-- The task of `cancel_on_shutdown_signal`. -/
inductive Watch where
  | notSpawned
  | waiting
  | heard (signal : Signal)
  | cancelled (signal : Signal)
  deriving DecidableEq, Repr

inductive MainPhase where
  | initialising
  | configuring
  | binding
  /-- `run` up to `serve`. -/
  | starting
  | serving
  | exited (result : Except MainError Unit)
  | panicked
  /-- A signal without a handler has ended the process. -/
  | killed (signal : Signal)

structure Process (Pool : Type) where
  phase : MainPhase := .initialising
  listeners : Signal → Listener := fun _ => .unpolled
  watch : Watch := .notSpawned
  startup : Startup Pool := {}
  service : Service := {}

inductive ProcessEvent (Pool : Type) where
  | initLogging (result : Except String Unit)
  | loadConfig
  | bind (result : Except String Unit)
  /-- The first poll of a listener. -/
  | listen (signal : Signal) (installed : Bool)
  | signal (signal : Signal)
  | cancelToken
  | startup (event : StartupEvent Pool)
  /-- `run` goes on after startup. -/
  | enter
  | service (event : ServiceEvent)
  | exit

namespace Process

variable {Pool : Type}

def initLogging (result : Except String Unit) (process : Process Pool) : Option (Process Pool) :=
  match process.phase with
  | .initialising =>
      match result with
      | .ok () => some { process with phase := .configuring }
      | .error cause => some { process with phase := .exited (.error (.logging cause)) }
  | _ => none

def loadConfig {SocketAddr Url : Type} (parsers : Parsers SocketAddr Url) (env : Env)
    (process : Process Pool) : Option (Process Pool) :=
  match process.phase with
  | .configuring =>
      match Config.fromEnv parsers env with
      | .ok _ => some { process with phase := .binding }
      | .error error => some { process with phase := .exited (.error (.config error)) }
  | _ => none

/-- Once the listener is bound, the signal task is spawned and `run` is called. -/
def bind (result : Except String Unit) (process : Process Pool) : Option (Process Pool) :=
  match process.phase with
  | .binding =>
      match result with
      | .ok () => some { process with phase := .starting, watch := .waiting }
      | .error cause => some { process with phase := .exited (.error (.bind cause)) }
  | _ => none

/-- A branch of the `select!` may be polled for the first time after the other has
heard its signal. -/
def listen (signal : Signal) (installed : Bool) (process : Process Pool) :
    Option (Process Pool) :=
  match process.phase, process.watch, process.listeners signal with
  | .starting, .waiting, .unpolled | .starting, .heard _, .unpolled
  | .serving, .waiting, .unpolled | .serving, .heard _, .unpolled =>
      some { process with
        listeners := Function.update process.listeners signal
          (if installed then .listening else .deaf) }
  | _, _, _ => none

/-- A handler that has been installed stays: later signals are swallowed. -/
def hear (signal : Signal) (process : Process Pool) : Process Pool :=
  match process.listeners signal with
  | .listening =>
      match process.watch with
      | .waiting => { process with watch := .heard signal }
      | _ => process
  | _ => { process with phase := .killed signal }

def signal (signal : Signal) (process : Process Pool) : Option (Process Pool) :=
  match process.phase with
  | .exited _ | .panicked | .killed _ => none
  | _ => some (process.hear signal)

/-- `token.cancel()` by the signal task. -/
def cancelToken (process : Process Pool) : Option (Process Pool) :=
  match process.watch with
  | .heard signal =>
      match process.phase with
      | .starting =>
          some { process with
            watch := .cancelled signal
            startup := { process.startup with cancelled := true } }
      | .serving =>
          some { process with watch := .cancelled signal, service := process.service.cancel }
      | _ => none
  | _ => none

/-- Only the signal task cancels the token while `run` is starting. -/
def startupStep (build : Build) (event : StartupEvent Pool) (process : Process Pool) :
    Option (Process Pool) :=
  match process.phase, event with
  | .starting, .cancel => none
  | .starting, event =>
      ((App.startup Pool build).step process.startup event).map fun startup =>
        { process with startup }
  | _, _ => none

def enter (process : Process Pool) : Option (Process Pool) :=
  match process.phase with
  | .starting =>
      match process.startup.stage with
      | .serving _ =>
          some { process with
            phase := .serving
            service := if process.startup.cancelled then process.service.cancel
              else process.service }
      | .returned result => some { process with phase := .exited (result.mapError .app) }
      | .panicked => some { process with phase := .panicked }
      | _ => none
  | _ => none

/-- The graceful server ends without an error only after the token has been
cancelled. -/
def serviceStep (world : World) (event : ServiceEvent) (process : Process Pool) :
    Option (Process Pool) :=
  match process.phase, event with
  | .serving, .cancel => none
  | .serving, .serverStops (.ok ()) =>
      if process.service.cancelled then
        (process.service.serverStops (.ok ())).map fun service => { process with service }
      else
        none
  | .serving, event =>
      ((App.service world).step process.service event).map fun service =>
        { process with service }
  | _, _ => none

def exit (process : Process Pool) : Option (Process Pool) :=
  match process.phase, process.service.serve with
  | .serving, .returned result => some { process with phase := .exited (result.mapError .app) }
  | _, _ => none

end Process

def process {SocketAddr Url : Type} (Pool : Type) (parsers : Parsers SocketAddr Url) (env : Env)
    (build : Build) (world : World) : Machine (Process Pool) (ProcessEvent Pool) where
  step process
    | .initLogging result => process.initLogging result
    | .loadConfig => process.loadConfig parsers env
    | .bind result => process.bind result
    | .listen signal installed => process.listen signal installed
    | .signal signal => process.signal signal
    | .cancelToken => process.cancelToken
    | .startup event => process.startupStep build event
    | .enter => process.enter
    | .service event => process.serviceStep world event
    | .exit => process.exit

end BipaNodes.App
