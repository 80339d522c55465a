import EventDispatch.Dispatch.Handler
import EventDispatch.Store.Access

/-!
# Workers

**Input.** An event that was claimed, and the handler of its tag.

**Algorithm.** A worker waits for a permit, remarks in the trail that the event is dispatched, and
calls the handler under a limit equal to the deadline of the event. What is left for it to do is a
list of actions; each makes at most one call of the store. A row of level `error` is followed by
sending the event back to wait, a row of level `fatal` by marking it failed.

**Results.** How the call ends decides the last actions: an event that is done completes; one to be
run again, or out of time, goes back to wait unless its retries are used up; every other end fails
it. A store call that fails is told and otherwise ignored.

**Contents**

* `Policy`: the grace of a retry and the number of retries
* `Action`, `Action.perform`
* `logActions`, `Deed.actions`, `retryActions`, `closingActions`
* `Pause`, `Stage`, `Worker`
-/

namespace EventDispatch

/-- What a worker is told about retries. -/
structure Policy where
  /-- By how much a retry extends the deadline. -/
  grace : Duration
  /-- After how many retries an event fails instead. -/
  maxRetries : Int
deriving DecidableEq

/-- One thing a worker does, with at most one call of the store. -/
inductive Action where
  /-- Tell something. -/
  | narrate (trace : Trace)
  /-- Add a row to the trail. -/
  | append (level : LogLevel) (message : String)
  /-- Send the event back to wait, after a row of level `error`. -/
  | returnAfterError
  /-- Mark the event failed, after a row of level `fatal`. -/
  | markFailed
  /-- Mark the event completed. -/
  | markCompleted
  /-- Send the event back to wait, at the wish of its handler. -/
  | giveBack
  /-- Sleep for some milliseconds. -/
  | sleep (milliseconds : Nat)
  /-- Wait until a gate lets one through. -/
  | pass (gate : String)
deriving DecidableEq

/-- What is told along with a row. -/
def rowTrace (e : Event) (level : LogLevel) (message : String) : Trace :=
  let fields := [("event_id", .event e.id), ("event_type", .text e.tag)]
  match level with
  | .info => .info message fields
  | .error => .warn message fields
  | .fatal => .error message fields

/-- The actions of writing a row. -/
def logActions (e : Event) (level : LogLevel) (message : String) : List Action :=
  [.narrate (rowTrace e level message), .append level message] ++
    match level with
    | .info => []
    | .error => [.returnAfterError]
    | .fatal => [.markFailed]

/-- The actions of a deed. -/
def Deed.actions (e : Event) : Deed → List Action
  | log level message => logActions e level message
  | narrate trace => [.narrate trace]
  | sleep ms => [.sleep ms]
  | pass gate => [.pass gate]

/-- The first actions of a worker that has its permit. -/
def openingActions (e : Event) : List Action :=
  logActions e .info ("dispatching event " ++ e.tag)

/-- The actions that end a run which is to be repeated; a reason is written down if there is one. -/
def retryActions (p : Policy) (e : Event) (reason : Option String) : List Action :=
  if p.maxRetries ≤ e.retries then
    logActions e .fatal ("reached max retries (" ++ toString p.maxRetries ++ ")")
  else
    match reason with
    | some reason => logActions e .error reason
    | none => [.giveBack]

/-- The number under which the task of a handler is reported: one for all, since nothing depends on
it. -/
def taskNumber : Nat := 0

/-- The actions that end a run whose handler ended by itself. -/
def closingActions (p : Policy) (e : Event) : Ending → List Action
  | .returned (.ok .done) => [.markCompleted]
  | .returned (.ok .retry) => retryActions p e none
  | .returned (.ok (.fatal reason)) => logActions e .fatal reason
  | .returned (.error cause) => logActions e .fatal cause.message
  | .panicked message =>
    logActions e .fatal
      ("executor aborted: task " ++ toString taskNumber ++ " panicked with message " ++
        Text.quoted message)

/-- The actions that end a run whose handler is out of time. -/
def timeoutActions (p : Policy) (e : Event) : List Action :=
  retryActions p e
    (some ("event timed out after " ++ toString e.deadline.magnitudeSeconds ++ "s"))

/-- What performing an action changes. -/
structure Effect where
  /-- The store after it. -/
  store : Store
  /-- What is told about it. -/
  traces : List Trace

/-- Performs an action that does not wait; `row` identifies a row that it may write. -/
def Action.perform (p : Policy) (a : Access) (s : Store) (clock : Instant) (row : Uuid) (e : Event)
    (action : Action) : Effect :=
  let id := ("event_id", TraceValue.event e.id)
  let failure := fun (cause : StoreError) (what : String) =>
    (⟨s, [.error what [id, ("error", .text cause.message)]]⟩ : Effect)
  match action with
  | .narrate trace => ⟨s, [trace]⟩
  | .append level message =>
    match a.appendLog s ⟨row, e.id, level, message, clock⟩ with
    | .ok s' => ⟨s', []⟩
    | .error cause => failure cause "Failed to append event log"
  | .returnAfterError =>
    match a.retry s clock e.id p.grace with
    | .ok (_, s') => ⟨s', []⟩
    | .error cause => failure cause "Failed to move event back to pending"
  | .markFailed =>
    match a.setStatus s clock e.id .failed with
    | .ok (_, s') => ⟨s', []⟩
    | .error cause => failure cause "Failed to mark event as failed"
  | .markCompleted =>
    match a.setStatus s clock e.id .completed with
    | .ok (true, s') => ⟨s', [.info "Event completed" [id, ("event_type", .text e.tag)]]⟩
    | .ok (false, s') => ⟨s', [.debug "Event already left processing, not completing" [id]]⟩
    | .error cause => failure cause "Failed to mark event as completed"
  | .giveBack =>
    match a.retry s clock e.id p.grace with
    | .ok (true, s') =>
      ⟨s', [.debug "Event returned to pending"
        [id, ("retry_count", .number (e.retryCount + 1).toInt)]]⟩
    | .ok (false, s') => ⟨s', [.debug "Event already left processing" [id]]⟩
    | .error cause => failure cause "Failed to return event to pending"
  | .sleep _ => ⟨s, []⟩
  | .pass _ => ⟨s, []⟩

/-- What keeps a handler from going on. -/
inductive Pause where
  /-- Nothing. -/
  | none
  /-- It sleeps until a point of the monotonic clock. -/
  | asleep (wake : Nat)
  /-- It stands at a gate, with its place in the order of arrival. -/
  | atGate (gate : String) (ticket : Nat)
deriving DecidableEq

/-- How far a worker is. -/
inductive Stage where
  /-- It waits for a permit. -/
  | queued
  /-- It has its permit and these actions before it calls the handler. -/
  | opening (todo : List Action)
  /-- The handler runs: what it has yet to do, how it will end, what keeps it, and the point of the
  monotonic clock at which it is out of time. -/
  | handling (todo : List Action) (ending : Ending) (pause : Pause) (limit : Nat)
  /-- The handler has ended or was told to stop, and these actions are left. -/
  | closing (todo : List Action)

/-- A run of an event. -/
structure Worker where
  /-- Its number, in the order in which workers were started. -/
  serial : Nat
  /-- The event as it was claimed. -/
  event : Event
  /-- What is called for it. -/
  handler : Handler
  /-- How far it is. -/
  stage : Stage

namespace Worker

/-- The worker of a claimed event. -/
def spawned (serial : Nat) (e : Event) (h : Handler) : Worker := ⟨serial, e, h, .queued⟩

/-- Whether its handler was called and it waits for the end of the call. -/
def isHandling (w : Worker) : Bool :=
  match w.stage with
  | .handling _ _ _ _ => true
  | _ => false

/-- Whether its handler sleeps. -/
def isAsleep (w : Worker) : Bool :=
  match w.stage with
  | .handling _ _ (.asleep _) _ => true
  | _ => false

/-- The points of the uptime at which it goes on by itself. -/
def timers (w : Worker) : List Nat :=
  match w.stage with
  | .handling _ _ (.asleep wake) limit => [wake, limit]
  | .handling _ _ _ limit => [limit]
  | _ => []

/-- Whether it holds a permit. -/
def holdsPermit (w : Worker) : Bool :=
  match w.stage with
  | .queued => false
  | _ => true

end Worker

/-- The milliseconds after which a handler is out of time: its deadline, without the sign, rounded
up. -/
def timeLimit (d : Duration) : Nat := (d.nanos.natAbs + 999999) / 1000000

end EventDispatch
