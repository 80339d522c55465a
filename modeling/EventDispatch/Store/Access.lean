import EventDispatch.Store.Basic

/-!
# Access to the store

**Input.** A call of a store operation, and the conditions under which the store can be reached.

**Rules.** Each operation may be down, which its callers see before the store is touched. Without a
connection every operation fails that needs one: a request is still checked first, and a move to
`new`, which no event may make, is still refused. Claims may also be lost to another client. A call
that fails leaves the store as it is.

**Contents**

* `Operation`, `StoreError`, `StoreError.message`
* `Access`, `Access.open`
* `Access.insert`, `Access.claim`, … : the operations behind it
-/

namespace EventDispatch

/-- The operations of a store. -/
inductive Operation where
  /-- Record an event. -/
  | insert
  /-- Look an event up. -/
  | get
  /-- List the events to run. -/
  | listDispatchable
  /-- Start to run an event. -/
  | claim
  /-- Change a status. -/
  | setStatus
  /-- Send an event back to wait. -/
  | retry
  /-- Add a row. -/
  | appendLog
  /-- Read the rows of an event. -/
  | logsForEvent
  /-- Read the events of an owner with their rows. -/
  | logsForOwner
  /-- Read the events of an owner. -/
  | eventsForOwner
  /-- Send all events being run back to wait. -/
  | resetProcessing
  /-- Send the expired events being run back to wait. -/
  | resetStaleProcessing
deriving DecidableEq, Repr

namespace Operation

/-- The name of an operation. -/
def name : Operation → String
  | insert => "insert"
  | get => "get"
  | listDispatchable => "list_dispatchable"
  | claim => "claim"
  | setStatus => "set_status"
  | retry => "increment_retry_and_extend_deadline"
  | appendLog => "append_log"
  | logsForEvent => "logs_for_event"
  | logsForOwner => "logs_for_owner"
  | eventsForOwner => "events_for_owner"
  | resetProcessing => "reset_processing"
  | resetStaleProcessing => "reset_stale_processing"

/-- Every operation. -/
def all : List Operation :=
  [insert, get, listDispatchable, claim, setStatus, retry, appendLog, logsForEvent, logsForOwner,
   eventsForOwner, resetProcessing, resetStaleProcessing]

/-- The operation of a name. -/
def ofName? (name : String) : Option Operation := all.find? fun o => o.name = name

end Operation

/-- Why a store operation failed. -/
inductive StoreError where
  /-- There is no connection to be had. -/
  | noConnection
  /-- The request is refused. -/
  | invalidRecord (cause : Rejection)
  /-- The operation is down. -/
  | unavailable (operation : Operation)
deriving DecidableEq

/-- The wording of a failure. -/
def StoreError.message : StoreError → String
  | noConnection => "database error: attempted to acquire a connection on a closed pool"
  | invalidRecord cause => "invalid record: " ++ cause.message
  | unavailable operation => "store unavailable: " ++ operation.name ++ " is down"

/-- Under which conditions the store is reached. -/
structure Access where
  /-- Whether connections can be had. -/
  connected : Bool
  /-- The operations that are down. -/
  down : List Operation
  /-- Whether every claim is lost to another client. -/
  claimsLost : Bool

namespace Access

/-- Nothing stands between a caller and the store. -/
def unhindered : Access := ⟨true, [], false⟩

/-- The store cannot be reached at all. -/
def unreachable : Access := ⟨false, [], false⟩

/-- Fails if the operation is down. -/
def permit (a : Access) (operation : Operation) : Except StoreError Unit :=
  if operation ∈ a.down then .error (.unavailable operation) else .ok ()

/-- Fails if there is no connection. -/
def connect (a : Access) : Except StoreError Unit :=
  if a.connected then .ok () else .error .noConnection

/-- Fails if the operation is down or there is no connection. -/
def reach (a : Access) (operation : Operation) : Except StoreError Unit := do
  a.permit operation
  a.connect

/-- The answer of an operation that may be refused, and the store after it. -/
def answer (s : Store) : Option Store → Bool × Store
  | some s' => (true, s')
  | none => (false, s)

/-- Records an event under a fresh identifier. -/
def insert (a : Access) (s : Store) (id : Uuid) (now : Instant) (e : NewEvent) :
    Except StoreError Store := do
  a.permit .insert
  match e.validate with
  | .error cause => throw (.invalidRecord cause)
  | .ok () =>
    a.connect
    pure (s.insert id now e)

/-- Looks an event up. -/
def get (a : Access) (s : Store) (id : Uuid) : Except StoreError (Option Event) := do
  a.reach .get
  pure (s.find? id)

/-- Lists the events to run. -/
def listDispatchable (a : Access) (s : Store) (filter : DispatchFilter) (now : Instant) :
    Except StoreError (List Event) := do
  a.reach .listDispatchable
  pure (s.dispatchable filter now)

/-- Starts to run an event, and says whether that was granted. -/
def claim (a : Access) (s : Store) (clock : Instant) (id : Uuid) :
    Except StoreError (Bool × Store) := do
  a.permit .claim
  if a.claimsLost then pure (false, s)
  else
    a.connect
    pure (answer s (s.claim? clock id))

/-- Changes a status, and says whether that was allowed. -/
def setStatus (a : Access) (s : Store) (clock : Instant) (id : Uuid) (status : Status) :
    Except StoreError (Bool × Store) := do
  a.permit .setStatus
  if status.sources.isEmpty then pure (false, s)
  else
    a.connect
    pure (answer s (s.settle? clock id status))

/-- Sends an event back to wait, and says whether it was being run. -/
def retry (a : Access) (s : Store) (clock : Instant) (id : Uuid) (extension : Duration) :
    Except StoreError (Bool × Store) := do
  a.reach .retry
  pure (answer s (s.retry? clock id extension))

/-- Adds a row. -/
def appendLog (a : Access) (s : Store) (row : LogRow) : Except StoreError Store := do
  a.reach .appendLog
  pure (s.append row)

/-- The last rows of an event, newest first. -/
def logsForEvent (a : Access) (s : Store) (id : Uuid) (limit : Int) :
    Except StoreError (List LogRow) := do
  a.reach .logsForEvent
  pure (s.logsOf id limit)

/-- The last changed events of an owner with their last rows. -/
def logsForOwner (a : Access) (s : Store) (owner : String) (limit : Int) :
    Except StoreError (List (Event × List LogRow)) := do
  a.reach .logsForOwner
  pure (s.trailsOf owner limit)

/-- The last changed events of an owner. -/
def eventsForOwner (a : Access) (s : Store) (owner : String) (limit : Int) :
    Except StoreError (List Event) := do
  a.reach .eventsForOwner
  pure (s.eventsOf owner limit)

/-- Sends every event being run back to wait, and counts them. -/
def resetProcessing (a : Access) (s : Store) (clock : Instant) :
    Except StoreError (Nat × Store) := do
  a.reach .resetProcessing
  pure (s.resetProcessing clock)

/-- Sends the expired events being run back to wait, and counts them. -/
def resetStale (a : Access) (s : Store) (clock now : Instant) :
    Except StoreError (Nat × Store) := do
  a.reach .resetStaleProcessing
  pure (s.resetStale clock now)

end Access
end EventDispatch
