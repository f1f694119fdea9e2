import BipaNodes.Http.Response
import BipaNodes.Lib.Time

/-!
# The router

Dispatch by path and method, and the layers around every route. A handler takes
time, may panic and may never finish; the layers make an answer of all of it.
-/

set_option autoImplicit false

namespace BipaNodes.Http

open Domain (Node)
open Storage (StorageError)

inductive Method where
  | get
  | head
  | post
  | put
  | delete
  | connect
  | options
  | trace
  | patch
  | extension (token : String)
  deriving DecidableEq, Repr

structure Request where
  method : Method
  path : String
  deriving DecidableEq, Repr

/-- What a panic carries: `panic!` boxes a `String` or a `&str`, others box
whatever they like. -/
inductive PanicPayload where
  | string (message : String)
  | str (message : String)
  | other
  deriving DecidableEq, Repr

inductive Ending where
  | returned (listed : Except StorageError (List Node))
  | panicked (payload : PanicPayload)

/-- A call of `list_nodes` on the repository. -/
inductive Call where
  | ends (after : Nanos) (ending : Ending)
  | hangs

inductive Content where
  | empty
  | body (body : Body)
  /-- `{"status": text}` -/
  | status (text : String)
  deriving DecidableEq, Repr

structure Answer where
  status : Nat
  contentType : Option String
  content : Content
  deriving DecidableEq, Repr

inductive LogEntry where
  | requestFailed (error : StorageError)
  | handlerPanicked (panic : String)
  deriving DecidableEq, Repr

/-- What becomes of a request inside a layer. -/
inductive Outcome where
  | answers (after : Nanos) (log : List LogEntry) (answer : Answer)
  | panics (after : Nanos) (payload : PanicPayload)
  | hangs
  deriving DecidableEq, Repr

/-- `Json(..).into_response()` -/
def Content.json (content : Content) (status : Nat) : Answer where
  status
  contentType := some "application/json"
  content

def Response.intoAnswer (response : Response) : Answer :=
  (Content.body response.body).json response.status

/-!
## Handlers
-/

/-- `ApiError::into_response` logs the details of the failure. -/
def failureLog (listed : Except StorageError (List Node)) : List LogEntry :=
  match listed with
  | .ok _ => []
  | .error error => [.requestFailed error]

def listNodesHandler (call : Call) : Outcome :=
  match call with
  | .ends after (.returned listed) =>
      .answers after (failureLog listed) (listNodes listed).intoAnswer
  | .ends after (.panicked payload) => .panics after payload
  | .hangs => .hangs

def health : Outcome := .answers 0 [] ((Content.status "ok").json 200)

def notFound : Outcome :=
  .answers 0 [] (Response.intoAnswer { status := 404, body := .error { error := "not found" } })

/-!
## Routes
-/

/-- The method router answers the methods without a handler itself. -/
def methodNotAllowed : Outcome :=
  .answers 0 [] { status := 405, contentType := none, content := .empty }

/-- `get(handler)`, which also takes HEAD requests. -/
def getRoute (handler : Outcome) (method : Method) : Outcome :=
  match method with
  | .get | .head => handler
  | _ => methodNotAllowed

def route (request : Request) (call : Call) : Outcome :=
  if request.path = "/nodes" then
    getRoute (listNodesHandler call) request.method
  else if request.path = "/health" then
    getRoute health request.method
  else
    notFound

/-!
## Layers
-/

def panicMessage (panic : PanicPayload) : String :=
  match panic with
  | .string message => message
  | .str message => message
  | .other => "unknown panic"

/-- `CatchPanicLayer::custom(panic_response)` -/
def catchPanic (inner : Outcome) : Outcome :=
  match inner with
  | .panics after payload =>
      .answers after [.handlerPanicked (panicMessage payload)] internalErrorResponse.intoAnswer
  | .answers after log answer => .answers after log answer
  | .hangs => .hangs

def requestTimeout : Nanos := Nanos.seconds 10

def requestTimedOut : Outcome :=
  .answers requestTimeout [] { status := 408, contentType := none, content := .empty }

/-- `TimeoutLayer::with_status_code`, which polls its timer before the request:
what is due together with the timeout comes too late. -/
def timeout (inner : Outcome) : Outcome :=
  match inner with
  | .answers after log answer =>
      if after < requestTimeout then .answers after log answer else requestTimedOut
  | .panics after payload =>
      if after < requestTimeout then .panics after payload else requestTimedOut
  | .hangs => requestTimedOut

/-- The answer to HEAD is that to GET without its content. -/
def Answer.withoutContent (answer : Answer) (method : Method) : Answer :=
  if method = .head then { answer with content := .empty } else answer

def router (request : Request) (call : Call) : Outcome :=
  match timeout (catchPanic (route request call)) with
  | .answers after log answer => .answers after log (answer.withoutContent request.method)
  | .panics after payload => .panics after payload
  | .hangs => .hangs

/-- The requests of a connection in the order of arrival, each with what the
repository does when it is asked to list the nodes. A panic that reached the
connection would drop it, and what never ends would hold up all behind it. -/
def serve : List (Request × Call) → List Outcome
  | [] => []
  | (request, call) :: exchanges =>
      let outcome := router request call
      match outcome with
      | .answers _ _ _ => outcome :: serve exchanges
      | .panics _ _ | .hangs => [outcome]

end BipaNodes.Http
