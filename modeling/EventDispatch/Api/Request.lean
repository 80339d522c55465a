import EventDispatch.Api.Url
import EventDispatch.Json.Printer

/-!
# Requests, routes and responses

**Input.** A request of an operator.

**Rules.** A path is compared part by part; a path with a slash more or less is another path. A part
that is a parameter may be empty. Each route answers one method, and every route that answers `GET`
answers `HEAD` in the same way, without a body.

**Contents**

* `Verb`, `Request`, `Response`
* `Route`, `Route.ofPath?`, `Route.allows`
-/

namespace EventDispatch

/-- The method of a request. -/
inductive Verb where
  /-- Read. -/
  | get
  /-- Read, without the body. -/
  | head
  /-- Act. -/
  | post
  /-- Any other. -/
  | other
deriving DecidableEq, Repr

/-- The method of a name. -/
def Verb.ofName : String → Verb
  | "GET" => get
  | "HEAD" => head
  | "POST" => post
  | _ => other

/-- A request. -/
structure Request where
  /-- Its method. -/
  verb : Verb
  /-- What it is directed at. -/
  target : Target
  /-- The content type that it declares. -/
  contentType : Option String
  /-- Its body. -/
  body : String

/-- The body of a response. -/
inductive ResponseBody where
  /-- Nothing. -/
  | empty
  /-- A JSON value. -/
  | json (v : Json)
  /-- A remark in words about a request that cannot be read. -/
  | remark

/-- A response. -/
structure Response where
  /-- Its status code. -/
  status : Nat
  /-- Its body. -/
  body : ResponseBody

/-- Why a request is refused by what it asks for. -/
def Response.failure (status : Nat) (reason : String) : Response :=
  ⟨status, .json (.object [("error", .str reason)])⟩

/-- A request that cannot be read. -/
def Response.unreadable (status : Nat) : Response := ⟨status, .remark⟩

/-- What a request can be directed at. -/
inductive Route where
  /-- Whether the service is up. -/
  | health
  /-- The events of an owner. -/
  | ownerEvents (owner : List Char)
  /-- The trail of an event. -/
  | eventLogs (id : List Char)
  /-- Registration. -/
  | events
  /-- Sending expired events back to wait. -/
  | reset
  /-- Requesting a cycle. -/
  | trigger
  /-- Pausing a class. -/
  | pause (eventClass : List Char)
  /-- Resuming a class. -/
  | resume (eventClass : List Char)
deriving DecidableEq

namespace Route

/-- The route of a path. -/
def ofPath? (path : List Char) : Option Route :=
  match Text.splitOn '/' path with
  | [[], a] =>
    if a = "health".toList then some health
    else if a = "events".toList then some events
    else none
  | [[], a, b] =>
    if a = "events".toList ∧ b = "reset".toList then some reset
    else if a = "dispatcher".toList ∧ b = "trigger".toList then some trigger
    else none
  | [[], a, parameter, b] =>
    if a = "owners".toList ∧ b = "events".toList then some (ownerEvents parameter)
    else if a = "events".toList ∧ b = "logs".toList then some (eventLogs parameter)
    else if a = "maintenance".toList ∧ b = "pause".toList then some (pause parameter)
    else if a = "maintenance".toList ∧ b = "resume".toList then some (resume parameter)
    else none
  | _ => none

/-- Whether the route only reads. -/
def isReading : Route → Bool
  | health | ownerEvents _ | eventLogs _ => true
  | _ => false

/-- Whether the route answers a method. -/
def allows (route : Route) : Verb → Bool
  | .get | .head => route.isReading
  | .post => !route.isReading
  | .other => false

end Route
end EventDispatch
