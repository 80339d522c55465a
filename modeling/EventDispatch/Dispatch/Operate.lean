import EventDispatch.Dispatch.Service

/-!
# Operating the service

**Input.** Calls from outside: events to register, requests for a cycle, classes to pause and to
resume.

**Rules.** A registered event is in the store before a cycle is requested for it. A class that is
paused already and one that is not paused are left as they are, and nothing is told. Events whose
deadline ran out are sent back to wait at the wish of an operator; a cycle follows.

**Contents**

* `RegisterError`, `Service.registerEvent`, `Service.registerKind`
* `Service.trigger`, `Service.resetStale`
* `Service.pauseClass`, `Service.resumeClass`, `Service.setPaused`
* `Service.text`
-/

namespace EventDispatch

/-- Why an event is not registered. -/
inductive RegisterError where
  /-- The payload has no JSON form. -/
  | payload (cause : Json.EncodeError)
  /-- The store did not take it. -/
  | store (cause : StoreError)
deriving DecidableEq

/-- The wording of such a failure. -/
def RegisterError.message : RegisterError → String
  | payload cause => "payload serialization error: " ++ cause.message
  | store cause => "store error: " ++ cause.message

namespace Service

/-- Requests a cycle, and says whether there is a loop to run it. -/
def trigger (s : Service) (hint : String) : Bool × Service :=
  match s.wakeups.request hint with
  | (true, wakeups) => (true, { s with wakeups })
  | (false, wakeups) =>
    (false, { s with wakeups }.tell (.debug "Dispatcher stopped, trigger dropped" []))

/-- Records an event and requests a cycle for it. -/
def registerEvent (s : Service) (tag : Tag) (owner : String) (deadline : Duration)
    (payload : Except Json.EncodeError Json) : Except RegisterError Uuid × Service :=
  match payload with
  | .error cause => (.error (.payload cause), s)
  | .ok payload =>
    let d := s.dispatcher
    let id := d.nextId
    match d.access.insert d.store id d.now ⟨tag, owner, payload, deadline⟩ with
    | .error cause => (.error (.store cause), s)
    | .ok store =>
      let recorded := { s with dispatcher := { d with store := store, minted := d.minted + 1 } }
      let told := recorded.tell (.info "Event registered"
        [("event_id", .event id), ("event_type", .text tag), ("owner", .text owner)])
      (.ok id, (told.trigger tag).2)

/-- Records an event of a known kind with the deadline of the kind. -/
def registerKind (s : Service) (kind : EventKind) (owner : String)
    (payload : Except Json.EncodeError Json) : Except RegisterError Uuid × Service :=
  s.registerEvent kind.tag owner kind.defaultDeadline payload

/-- Pauses a class, and says whether it was not paused. -/
def pauseClass (s : Service) (c : EventClass) : Bool × Service :=
  match s.pauses.pause c with
  | (true, pauses) =>
    (true, { s with pauses }.tell (.info "Event class paused" [("class", .text c.name)]))
  | (false, pauses) => (false, { s with pauses })

/-- Resumes a class, and says whether it was paused. -/
def resumeClass (s : Service) (c : EventClass) : Bool × Service :=
  match s.pauses.resume c with
  | (true, pauses) =>
    (true, { s with pauses }.tell (.info "Event class resumed" [("class", .text c.name)]))
  | (false, pauses) => (false, { s with pauses })

/-- Puts another set of paused classes in place. -/
def setPaused (s : Service) (classes : List EventClass) : Service :=
  { s with pauses := s.pauses.replace classes }

/-- Sends the events whose deadline ran out back to wait, counts them, and requests a cycle. -/
def resetStale (s : Service) : Except StoreError Nat × Service :=
  let d := s.dispatcher
  match d.access.resetStale d.store d.now d.now with
  | .error cause => (.error cause, s)
  | .ok (count, store) =>
    let told := { s with dispatcher := { d with store := store } }.tell
      (.info "Reset stale processing events" [("count", .number count)])
    (.ok count, (told.trigger "reset").2)

/-- Sends a value to the loop that tells it whether to stop, and says whether there is a sender. -/
def sendShutdown (s : Service) (stop : Bool) : Bool × Service :=
  match s.shutdown.send stop with
  | (sent, shutdown) => (sent, { s with shutdown })

/-- Lets the sender of the signal go. -/
def dropShutdown (s : Service) : Service := { s with shutdown := s.shutdown.abandon }

/-- Gives up a dispatcher whose loop was not started. -/
def discardLoop (s : Service) : Service :=
  match s.loop.phase with
  | .unstarted => s.endLoop
  | _ => s

/-- The entry point in a listing of values. -/
def text (s : Service) : String :=
  "DispatcherHandle \x7b paused: " ++ s.pauses.text ++ ", .. \x7d"

end Service
end EventDispatch
