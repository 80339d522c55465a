import EventDispatch.Api.Body
import EventDispatch.Api.MediaType
import EventDispatch.Api.Request
import EventDispatch.Dispatch.Operate

/-!
# The operator interface

**Input.** A request, and the service.

**Rules.** The path is looked at first, then the method, then the parameters in the path, the query and
the body; the first that is wrong decides the answer, and nothing is done then. A body that is too long
is not read. An event is registered with the deadline of its kind if the request gives none. Failures of
the store are told, and kept from the operator.

**Contents**

* `ApiError`, `ApiError.response`
* `ListQuery.ofQuery?`, `RegisterRequest.deadline?`, `Service.bodyLimit`
* `Service.listOwnerEvents`, `Service.listEventLogs`, `Service.registerFrom`, …: one for each route
* `Service.serve`
-/

namespace EventDispatch

/-- Why a request that was read is not fulfilled. -/
inductive ApiError where
  /-- The store failed. -/
  | store (cause : StoreError)
  /-- The request asks for something that cannot be. -/
  | badRequest (reason : String)
  /-- There is no such event. -/
  | notFound
  /-- There is no loop to run a cycle. -/
  | stopped
deriving DecidableEq

namespace ApiError

/-- The cause of a failure of the store: a refused request is the fault of the operator. -/
def ofStore : StoreError → ApiError
  | .invalidRecord cause => badRequest cause.message
  | cause => store cause

/-- The cause of a failed registration. -/
def ofRegister : RegisterError → ApiError
  | .store cause => ofStore cause
  | .payload cause => badRequest (RegisterError.payload cause).message

/-- What the operator is answered. -/
def response : ApiError → Response
  | store _ => .failure 500 "internal server error"
  | badRequest reason => .failure 400 reason
  | notFound => .failure 404 "resource not found"
  | stopped => .failure 503 "dispatcher stopped"

/-- What is told about it. -/
def traces : ApiError → List Trace
  | store cause => [.error "Operator API store error" [("error", .text cause.message)]]
  | stopped => [.error "Operator API: dispatcher stopped" []]
  | badRequest _ | notFound => []

end ApiError

/-- The least integer of 64 bits. -/
def leastInt64 : Int := -9223372036854775808

/-- The greatest integer of 64 bits. -/
def greatestInt64 : Int := 9223372036854775807

/-- How much of a listing a query asks for, if it can be read. -/
def ListQuery.ofQuery? (query : List Char) : Option ListQuery :=
  match (Target.queryPairs query).filter fun p => p.1 = some "limit" with
  | [] => some ⟨defaultLimit⟩
  | [(_, some value)] => (Text.integer? leastInt64 greatestInt64 value.toList).map fun n => ⟨n⟩
  | _ => none

/-- The deadline of a request: the one it gives, or that of its kind. -/
def RegisterRequest.deadline? (r : RegisterRequest) : Option Duration :=
  match r.deadlineSeconds with
  | some seconds => some (.ofSeconds seconds)
  | none => (EventKind.ofTag? r.tag).map EventKind.defaultDeadline

namespace Service

/-- Answers with a failure. -/
def refuse (s : Service) (e : ApiError) : Response × Service :=
  (e.response, { s with dispatcher := s.dispatcher.tellAll e.traces })

/-- Answers that the service is up. -/
def reportHealth (s : Service) : Response × Service :=
  (⟨200, .json (.object [("status", .str "healthy"), ("version", .str "0.1.0")])⟩, s)

/-- Lists the last changed events of an owner with their last rows. -/
def listOwnerEvents (s : Service) (owner : String) (query : ListQuery) : Response × Service :=
  match s.dispatcher.access.logsForOwner s.dispatcher.store owner (clampLimit query.limit) with
  | .error cause => s.refuse (.ofStore cause)
  | .ok listed =>
    (⟨200, .json (Json.encodeList EventHistory.encode
      (listed.map fun (e, rows) => .ofEvent e rows))⟩, s)

/-- Lists the last rows of an event, if there is one. -/
def listEventLogs (s : Service) (id : Uuid) (query : ListQuery) : Response × Service :=
  match s.dispatcher.access.get s.dispatcher.store id with
  | .error cause => s.refuse (.ofStore cause)
  | .ok none => s.refuse .notFound
  | .ok (some _) =>
    match s.dispatcher.access.logsForEvent s.dispatcher.store id (clampLimit query.limit) with
    | .error cause => s.refuse (.ofStore cause)
    | .ok rows =>
      (⟨200, .json (Json.encodeList TrailEntry.encode (rows.map TrailEntry.ofRow))⟩, s)

/-- Registers the event of a request. -/
def registerFrom (s : Service) (r : RegisterRequest) : Response × Service :=
  match r.deadline? with
  | none => s.refuse (.badRequest ("deadline_secs is required for event type " ++ r.tag))
  | some deadline =>
    match s.registerEvent r.tag r.owner deadline (.ok r.payload) with
    | (.error cause, s) => s.refuse (.ofRegister cause)
    | (.ok id, s) => (⟨201, .json (RegisterReply.encode ⟨id⟩)⟩, s)

/-- The greatest number of bytes of a body that is read. -/
def bodyLimit : Nat := 2097152

/-- Registers the event of a body, if it can be read. -/
def registerBody (s : Service) (contentType : Option String) (body : String) :
    Response × Service :=
  if contentType.any MediaType.isJson then
    if bodyLimit < body.utf8ByteSize then (.unreadable 413, s)
    else
      match RegisterRequest.ofBody body with
      | .error .malformed => (.unreadable 400, s)
      | .error .mismatched => (.unreadable 422, s)
      | .ok request => s.registerFrom request
  else (.unreadable 415, s)

/-- Sends expired events back to wait. -/
def resetFrom (s : Service) : Response × Service :=
  match s.resetStale with
  | (.error cause, s) => s.refuse (.ofStore cause)
  | (.ok count, s) => (⟨200, .json (ResetReply.encode ⟨count⟩)⟩, s)

/-- Requests a cycle. -/
def triggerFrom (s : Service) : Response × Service :=
  match s.trigger "operator" with
  | (true, s) => (⟨202, .empty⟩, s)
  | (false, s) => s.refuse .stopped

/-- Switches a class of the given name. -/
def switchClass (s : Service) (name : String)
    (switch : EventClass → Bool × Service) : Response × Service :=
  match EventClass.ofName? name with
  | none => s.refuse (.badRequest (EventClass.unknownText name))
  | some c =>
    match switch c with
    | (changed, s) => (⟨200, .json (PauseReply.encode ⟨changed, s.pauses.classes⟩)⟩, s)

/-- Answers a request on a route that allows its method. -/
def answer (s : Service) (route : Route) (r : Request) : Response × Service :=
  let unreadable : Response × Service := (.unreadable 400, s)
  match route with
  | .health => s.reportHealth
  | .ownerEvents owner =>
    match Target.percentDecode? owner, ListQuery.ofQuery? r.target.query with
    | some owner, some query => s.listOwnerEvents owner query
    | _, _ => unreadable
  | .eventLogs id =>
    match (Target.percentDecode? id).bind Uuid.ofText?, ListQuery.ofQuery? r.target.query with
    | some id, some query => s.listEventLogs id query
    | _, _ => unreadable
  | .events => s.registerBody r.contentType r.body
  | .reset => s.resetFrom
  | .trigger => s.triggerFrom
  | .pause name =>
    match Target.percentDecode? name with
    | some name => s.switchClass name s.pauseClass
    | none => unreadable
  | .resume name =>
    match Target.percentDecode? name with
    | some name => s.switchClass name s.resumeClass
    | none => unreadable

/-- Answers a request. -/
def serve (s : Service) (r : Request) : Response × Service :=
  match Route.ofPath? r.target.path with
  | none => (⟨404, .empty⟩, s)
  | some route =>
    if route.allows r.verb then
      match r.verb, s.answer route r with
      | .head, (response, s) => (⟨response.status, .empty⟩, s)
      | _, (response, s) => (response, s)
    else (⟨405, .empty⟩, s)

end Service
end EventDispatch
