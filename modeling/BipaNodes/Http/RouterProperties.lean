import BipaNodes.Http.Router

/-!
# Answers to failed requests

Handlers, fallback and panic layer answer a failure with JSON. The method router
and the timeout layer have answers of their own, and those are empty.
-/

set_option autoImplicit false

namespace BipaNodes.Http

open Domain (Node)
open Storage (StorageError)

/-- What the client gets of an outcome. -/
def Outcome.reply (outcome : Outcome) : Option Answer :=
  match outcome with
  | .answers _ _ answer => some answer
  | .panics _ _ => none
  | .hangs => none

def replies (exchanges : List (Request × Call)) : List (Option Answer) :=
  (serve exchanges).map Outcome.reply

def Answer.Failed (answer : Answer) : Prop := ¬(200 ≤ answer.status ∧ answer.status < 300)

instance (answer : Answer) : Decidable answer.Failed := inferInstanceAs (Decidable ¬_)

/-- `{"error": text}` as JSON. -/
def errorAnswer (status : Nat) (text : String) : Answer :=
  Response.intoAnswer { status, body := .error { error := text } }

/-- The answers to `method` that carry an error as JSON. HEAD gets the header
fields of such an answer only. -/
def IsJsonError (method : Method) (answer : Answer) : Prop :=
  ∃ text, answer = (errorAnswer answer.status text).withoutContent method

/-- Calls that differ at most in the details of their failures. -/
inductive SameButDetails : Call → Call → Prop where
  | same (call : Call) : SameButDetails call call
  | errors (after : Nanos) (left right : StorageError) :
      SameButDetails (.ends after (.returned (.error left)))
        (.ends after (.returned (.error right)))
  | panics (after : Nanos) (left right : PanicPayload) :
      SameButDetails (.ends after (.panicked left)) (.ends after (.panicked right))

structure ErrorsAreGeneric (exchanges : List (Request × Call)) : Prop where
  json : ∀ request call answer, (request, call) ∈ exchanges →
    (router request call).reply = some answer → answer.Failed → IsJsonError request.method answer
  confidential : ∀ others,
    List.Forall₂ (fun left right => left.1 = right.1 ∧ SameButDetails left.2 right.2)
      exchanges others → replies exchanges = replies others
  /-- Whatever comes after a request is answered as it would be without it. -/
  isolated : ∀ before request call after, exchanges = before ++ (request, call) :: after →
    ∃ answer, (router request call).reply = some answer ∧
      replies exchanges = replies before ++ some answer :: replies after ∧
      replies (before ++ after) = replies before ++ replies after

/-!
## One request
-/

def Request.Unregistered (request : Request) : Prop :=
  (request.path = "/nodes" ∨ request.path = "/health") ∧
    request.method ≠ .get ∧ request.method ≠ .head

instance (request : Request) : Decidable request.Unregistered :=
  inferInstanceAs (Decidable (_ ∧ _))

/-- The call does not end before the timeout. -/
def Call.Late (call : Call) : Prop :=
  match call with
  | .ends after _ => requestTimeout ≤ after
  | .hangs => True

instance (call : Call) : Decidable call.Late :=
  match call with
  | .ends after _ => inferInstanceAs (Decidable (requestTimeout ≤ after))
  | .hangs => inferInstanceAs (Decidable True)

def Request.ListsNodes (request : Request) : Prop :=
  request.path = "/nodes" ∧ (request.method = .get ∨ request.method = .head)

instance (request : Request) : Decidable request.ListsNodes :=
  inferInstanceAs (Decidable (_ ∧ _))

/-- No handler and no layer of the service answers these. -/
def LeftToDefault (request : Request) (call : Call) : Prop :=
  request.Unregistered ∨ request.ListsNodes ∧ call.Late

/-- Where a request goes. -/
inductive Routed (request : Request) (call : Call) : Outcome → Prop where
  | nodes : request.ListsNodes → Routed request call (listNodesHandler call)
  | health : request.path = "/health" → request.method = .get ∨ request.method = .head →
      Routed request call health
  | methodNotAllowed : request.Unregistered → Routed request call methodNotAllowed
  | notFound : request.path ≠ "/nodes" → request.path ≠ "/health" → Routed request call notFound

theorem getRoute_cases (handler : Outcome) (method : Method) :
    (method = .get ∨ method = .head) ∧ getRoute handler method = handler ∨
      (method ≠ .get ∧ method ≠ .head) ∧ getRoute handler method = methodNotAllowed := by
  cases method with
  | get => exact .inl ⟨.inl rfl, rfl⟩
  | head => exact .inl ⟨.inr rfl, rfl⟩
  | _ => exact .inr ⟨⟨nofun, nofun⟩, rfl⟩

theorem route_routed (request : Request) (call : Call) :
    Routed request call (route request call) := by
  unfold route
  split
  · next nodes =>
      obtain ⟨served, routed⟩ | ⟨unserved, routed⟩ :=
        getRoute_cases (listNodesHandler call) request.method
      · rw [routed]
        exact .nodes ⟨nodes, served⟩
      · rw [routed]
        exact .methodNotAllowed ⟨.inl nodes, unserved⟩
  · next notNodes =>
      split
      · next isHealth =>
          obtain ⟨served, routed⟩ | ⟨unserved, routed⟩ := getRoute_cases health request.method
          · rw [routed]
            exact .health isHealth served
          · rw [routed]
            exact .methodNotAllowed ⟨.inr isHealth, unserved⟩
      · next notHealth => exact .notFound notNodes notHealth

/-- The answers that the service itself gives. -/
inductive Own : Answer → Prop where
  | success {content : Content} : Own (content.json 200)
  | internalError : Own (errorAnswer 500 internalError)
  | notFound : Own (errorAnswer 404 "not found")

theorem Own.isJsonError {answer : Answer} (own : Own answer) {method : Method}
    (failed : (answer.withoutContent method).Failed) :
    IsJsonError method (answer.withoutContent method) := by
  have sameStatus : (answer.withoutContent method).status = answer.status := by
    unfold Answer.withoutContent
    split <;> rfl
  unfold Answer.Failed at failed
  rw [IsJsonError, sameStatus]
  rw [sameStatus] at failed
  cases own with
  | success => exact absurd (show 200 ≤ 200 ∧ 200 < 300 by decide) failed
  | internalError => exact ⟨_, rfl⟩
  | notFound => exact ⟨_, rfl⟩

theorem listNodesHandler_late {call : Call} (late : call.Late) :
    timeout (catchPanic (listNodesHandler call)) = requestTimedOut := by
  cases call with
  | hangs => rfl
  | ends after ending =>
      have tooLate : ¬ after < requestTimeout := Nat.not_lt.mpr late
      cases ending with
      | returned listed => exact if_neg tooLate
      | panicked payload => exact if_neg tooLate

theorem listNodesHandler_own {call : Call} (notLate : ¬ call.Late) :
    ∃ after log answer, timeout (catchPanic (listNodesHandler call)) = .answers after log answer ∧
      Own answer := by
  cases call with
  | hangs => exact absurd trivial notLate
  | ends after ending =>
      have inTime : after < requestTimeout := Nat.not_le.mp notLate
      cases ending with
      | returned listed =>
          refine ⟨after, failureLog listed, (listNodes listed).intoAnswer, if_pos inTime, ?_⟩
          cases listed with
          | ok nodes => exact .success
          | error error => exact .internalError
      | panicked payload =>
          exact ⟨after, _, errorAnswer 500 internalError, if_pos inTime, .internalError⟩

theorem Request.ListsNodes.not_unregistered {request : Request} (lists : request.ListsNodes) :
    ¬ request.Unregistered := by
  intro unregistered
  rcases lists.2 with get | head
  · exact unregistered.2.1 get
  · exact unregistered.2.2 head

theorem withoutContent_empty (method : Method) (status : Nat) (contentType : Option String) :
    ({ status, contentType, content := .empty } : Answer).withoutContent method =
      { status, contentType, content := .empty } := by
  unfold Answer.withoutContent
  split <;> rfl

theorem not_isJsonError {method : Method} {answer : Answer}
    (untyped : answer.contentType = none) : ¬ IsJsonError method answer := by
  intro error
  obtain ⟨text, same⟩ := error
  rw [same] at untyped
  unfold Answer.withoutContent at untyped
  split at untyped <;> cases untyped

theorem reply_router (request : Request) (call : Call) :
    (router request call).reply =
      (timeout (catchPanic (route request call))).reply.map
        (·.withoutContent request.method) := by
  rw [router]
  cases timeout (catchPanic (route request call)) <;> rfl

theorem reply_router_of_layered {request : Request} {call : Call} {inner : Outcome} {after : Nanos}
    {log : List LogEntry} {answer : Answer} (routed : route request call = inner)
    (layered : timeout (catchPanic inner) = .answers after log answer) :
    (router request call).reply = some (answer.withoutContent request.method) := by
  rw [reply_router, routed, layered]
  rfl

/-- Every request is answered, by the service itself unless it is left to a
default of the method router or of the timeout layer. -/
theorem router_cases (request : Request) (call : Call) :
    (LeftToDefault request call ∧ ∃ status, (status = 405 ∨ status = 408) ∧
        (router request call).reply =
          some { status, contentType := none, content := .empty }) ∨
      (¬ LeftToDefault request call ∧ ∃ answer, Own answer ∧
        (router request call).reply = some (answer.withoutContent request.method)) := by
  have routed := route_routed request call
  generalize inner : route request call = outcome at routed
  cases routed with
  | nodes lists =>
      by_cases late : call.Late
      · left
        refine ⟨.inr ⟨lists, late⟩, 408, .inr rfl, ?_⟩
        rw [reply_router_of_layered inner (listNodesHandler_late late), withoutContent_empty]
      · right
        obtain ⟨after, log, answer, layered, own⟩ := listNodesHandler_own late
        refine ⟨?_, answer, own, reply_router_of_layered inner layered⟩
        intro defaulted
        exact defaulted.elim lists.not_unregistered fun listed => late listed.2
  | health isHealth served =>
      right
      refine ⟨?_, _, .success, reply_router_of_layered inner rfl⟩
      intro defaulted
      rcases defaulted with unregistered | listed
      · exact served.elim unregistered.2.1 unregistered.2.2
      · rw [Request.ListsNodes, isHealth] at listed
        exact absurd listed.1.1 (by decide)
  | methodNotAllowed unregistered =>
      left
      refine ⟨.inl unregistered, 405, .inl rfl, ?_⟩
      rw [reply_router_of_layered inner rfl, withoutContent_empty]
  | notFound notNodes notHealth =>
      right
      refine ⟨?_, _, .notFound, reply_router_of_layered inner rfl⟩
      intro defaulted
      rcases defaulted with unregistered | listed
      · exact unregistered.1.elim notNodes notHealth
      · exact notNodes listed.1.1

/-- The details of a failure are logged, and nothing else is done with them. -/
theorem reply_sameButDetails (request : Request) {left right : Call}
    (same : SameButDetails left right) :
    (router request left).reply = (router request right).reply := by
  have handled : (timeout (catchPanic (listNodesHandler left))).reply =
      (timeout (catchPanic (listNodesHandler right))).reply := by
    cases same with
    | same => rfl
    | errors after | panics after =>
        by_cases inTime : after < requestTimeout <;>
          simp [listNodesHandler, catchPanic, timeout, inTime, listNodes, Outcome.reply]
  have layered (method : Method) :
      (timeout (catchPanic (getRoute (listNodesHandler left) method))).reply =
        (timeout (catchPanic (getRoute (listNodesHandler right) method))).reply := by
    cases method with
    | get | head => exact handled
    | _ => rfl
  rw [reply_router, reply_router]
  unfold route
  split
  · rw [layered]
  · rfl

/-!
## A connection
-/

theorem exists_reply (request : Request) (call : Call) :
    ∃ answer, (router request call).reply = some answer := by
  rcases router_cases request call with empty | own
  · obtain ⟨_, _, _, reply⟩ := empty
    exact ⟨_, reply⟩
  · obtain ⟨_, _, _, reply⟩ := own
    exact ⟨_, reply⟩

/-- No request drops the connection or holds up the ones behind it. -/
theorem serve_eq_map (exchanges : List (Request × Call)) :
    serve exchanges = exchanges.map fun exchange => router exchange.1 exchange.2 := by
  induction exchanges with
  | nil => rfl
  | cons exchange exchanges ih =>
      obtain ⟨request, call⟩ := exchange
      obtain ⟨answer, reply⟩ := exists_reply request call
      rw [serve, List.map_cons, ih]
      cases outcome : router request call with
      | answers after log shown => rfl
      | panics after payload =>
          rw [outcome] at reply
          cases reply
      | hangs =>
          rw [outcome] at reply
          cases reply

theorem replies_cons (request : Request) (call : Call) (exchanges : List (Request × Call)) :
    replies ((request, call) :: exchanges) = (router request call).reply :: replies exchanges := by
  rw [replies, serve_eq_map, replies, serve_eq_map]
  rfl

theorem replies_append (before after : List (Request × Call)) :
    replies (before ++ after) = replies before ++ replies after := by
  induction before with
  | nil => rfl
  | cons exchange before ih =>
      rw [List.cons_append, replies_cons, replies_cons, ih, List.cons_append]

/-- The details of the failures of a whole run are confidential. -/
theorem replies_sameButDetails {exchanges others : List (Request × Call)}
    (same : List.Forall₂ (fun left right => left.1 = right.1 ∧ SameButDetails left.2 right.2)
      exchanges others) : replies exchanges = replies others := by
  induction same with
  | nil => rfl
  | @cons left right exchanges others head tail ih =>
      obtain ⟨sameRequest, sameCall⟩ := head
      rw [replies_cons, replies_cons, sameRequest, reply_sameButDetails right.1 sameCall, ih]

/-- Errors are generic JSON in exactly the runs in which nothing is left to a
default. -/
theorem errors_generic_iff (exchanges : List (Request × Call)) :
    ErrorsAreGeneric exchanges ↔
      ∀ request call, (request, call) ∈ exchanges → ¬ LeftToDefault request call := by
  constructor
  · intro generic request call member defaulted
    rcases router_cases request call with empty | own
    · obtain ⟨_, status, isDefault, reply⟩ := empty
      have failed : Answer.Failed { status, contentType := none, content := .empty } := by
        rintro ⟨_, success⟩
        rcases isDefault with rfl | rfl <;> contradiction
      exact not_isJsonError rfl (generic.json request call _ member reply failed)
    · exact own.1 defaulted
  · intro notDefaulted
    refine ⟨?_, ?_, ?_⟩
    · intro request call answer member reply failed
      rcases router_cases request call with empty | own
      · exact absurd empty.1 (notDefaulted request call member)
      · obtain ⟨_, shown, isOwn, shownReply⟩ := own
        rw [shownReply, Option.some.injEq] at reply
        subst reply
        exact isOwn.isJsonError failed
    · intro others same
      exact replies_sameButDetails same
    · intro before request call after split
      obtain ⟨answer, reply⟩ := exists_reply request call
      refine ⟨answer, reply, ?_, replies_append before after⟩
      rw [split, replies_append, replies_cons, reply]

/-- A wrong method on a known path, and a repository that does not answer. -/
theorem empty_errors :
    (router { method := .post, path := "/nodes" } (.ends 0 (.returned (.ok [])))).reply =
        some { status := 405, contentType := none, content := .empty } ∧
      ¬ ErrorsAreGeneric
        [({ method := .post, path := "/nodes" }, .ends 0 (.returned (.ok [])))] ∧
      (router { method := .get, path := "/nodes" } .hangs).reply =
        some { status := 408, contentType := none, content := .empty } ∧
      ¬ ErrorsAreGeneric [({ method := .get, path := "/nodes" }, .hangs)] := by
  refine ⟨by decide, ?_, by decide, ?_⟩
  · intro generic
    exact not_isJsonError rfl
      (generic.json _ _ _ List.mem_cons_self rfl (by decide))
  · intro generic
    exact not_isJsonError rfl
      (generic.json _ _ _ List.mem_cons_self rfl (by decide))

end BipaNodes.Http
