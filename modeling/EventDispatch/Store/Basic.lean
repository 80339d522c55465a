import EventDispatch.Store.Selection

/-!
# The store

**State.** The recorded events and the rows of the audit trail, both in the order in which they were
written.

**Rules.** Every operation is one step. An operation that is refused leaves the store as it is, so
it answers `none`; one that succeeds answers the store after it. A status changes only as
`Status.canBecome` allows, a claim also needs that no other event with the same key is being run,
and rows are only ever added at the end.

**Contents**

* `Store`, `Store.find?`, `Store.revise`
* `Store.insert`, `Store.claim?`, `Store.settle?`, `Store.retry?`, `Store.append`
* `Store.dispatchable`
* `Store.logsOf`, `Store.eventsOf`, `Store.trailsOf`: what an operator reads
* `Store.resetProcessing`, `Store.resetStale`
-/

namespace EventDispatch

/-- Events and their audit trail. -/
structure Store where
  /-- The events, first recorded first. -/
  events : List Event
  /-- The rows of all trails, first written first. -/
  trail : List LogRow
deriving Inhabited

namespace Store

/-- A store without events. -/
def empty : Store := ⟨[], []⟩

/-- The event of an identifier. -/
def find? (s : Store) (id : Uuid) : Option Event := s.events.find? fun e => e.id = id

/-- Changes the event of an identifier and leaves all others. -/
def revise (s : Store) (id : Uuid) (change : Event → Event) : Store :=
  { s with events := s.events.map fun e => if e.id = id then change e else e }

/-- Records an event that was checked before. -/
def insert (s : Store) (id : Uuid) (now : Instant) (e : NewEvent) : Store :=
  { s with events := s.events ++ [e.recorded id now] }

/-- Whether another event with the key is being run. -/
def isBusy (s : Store) (id : Uuid) (key : Key) : Bool :=
  s.events.any fun e => e.id ≠ id && e.status = .processing && e.key = key

/-- Moves a new or pending event to `processing`, unless an event with its key is being run. -/
def claim? (s : Store) (now : Instant) (id : Uuid) : Option Store :=
  match s.find? id with
  | none => none
  | some target =>
    if target.status.canBecome .processing && !s.isBusy id target.key then
      some (s.revise id fun e => { e with status := .processing, updated := now })
    else none

/-- Moves an event to a status, if it may. -/
def settle? (s : Store) (now : Instant) (id : Uuid) (status : Status) : Option Store :=
  match s.find? id with
  | none => none
  | some target =>
    if target.status.canBecome status then
      some (s.revise id fun e => { e with status := status, updated := now })
    else none

/-- Sends an event that is being run back to wait, with one more retry and a longer deadline. The
count that is kept goes up by one as a word does (`Event.retryCount_of_retries_eq`). -/
def retry? (s : Store) (now : Instant) (id : Uuid) (extension : Duration) : Option Store :=
  match s.find? id with
  | none => none
  | some target =>
    if target.status = .processing then
      some (s.revise id fun e =>
        { e with
          status := .pending
          retries := e.retries + 1
          deadline := e.deadline.saturatingAdd extension
          updated := now })
    else none

/-- Adds a row to the trail of an event, whether it is recorded or not. -/
def append (s : Store) (row : LogRow) : Store := { s with trail := s.trail ++ [row] }

/-- The events to run at `now`. -/
def dispatchable (s : Store) (filter : DispatchFilter) (now : Instant) : List Event :=
  select (s.events.filter fun e => e.status = .processing)
    (s.events.filter fun e => e.status = .new || e.status = .pending) filter now

/-- The last rows of an event, newest first. -/
def logsOf (s : Store) (id : Uuid) (limit : Int) : List LogRow :=
  (s.trail.reverse.filter fun row => row.event = id).take limit.toNat

/-- The events of an owner, last changed first; of those changed at one instant, the last recorded
first. -/
def eventsOf (s : Store) (owner : String) (limit : Int) : List Event :=
  ((s.events.filter fun e => e.owner = owner).reverse.mergeSort
    fun a b => b.updated ≤ a.updated).take limit.toNat

/-- The last changed events of an owner, each with its last rows. -/
def trailsOf (s : Store) (owner : String) (limit : Int) : List (Event × List LogRow) :=
  (s.eventsOf owner limit).map fun e => (e, s.logsOf e.id limit)

/-- Whether the deadline of an event ran out before `now`. -/
def hasExpired (e : Event) (now : Instant) : Bool :=
  (e.updated.add? e.deadline).any (· < now)

/-- Sends the events being run that satisfy a condition back to wait. -/
def resetWhere (s : Store) (clock : Instant) (affected : Event → Bool) : Store :=
  { s with
    events := s.events.map fun e =>
      if e.status = .processing && affected e then
        { e with status := .pending, updated := clock }
      else e }

/-- The number of events being run that satisfy a condition. -/
def countWhere (s : Store) (affected : Event → Bool) : Nat :=
  s.events.countP fun e => e.status = .processing && affected e

/-- Sends every event being run back to wait, and counts them. -/
def resetProcessing (s : Store) (clock : Instant) : Nat × Store :=
  (s.countWhere fun _ => true, s.resetWhere clock fun _ => true)

/-- Sends the events being run whose deadline ran out before `now` back to wait, and counts them. -/
def resetStale (s : Store) (clock now : Instant) : Nat × Store :=
  (s.countWhere (hasExpired · now), s.resetWhere clock (hasExpired · now))

@[simp] theorem trail_revise (s : Store) (id : Uuid) (change : Event → Event) :
    (s.revise id change).trail = s.trail := rfl

@[simp] theorem events_append (s : Store) (row : LogRow) : (s.append row).events = s.events := rfl

@[simp] theorem trail_append (s : Store) (row : LogRow) :
    (s.append row).trail = s.trail ++ [row] := rfl

@[simp] theorem trail_resetWhere (s : Store) (clock : Instant) (affected : Event → Bool) :
    (s.resetWhere clock affected).trail = s.trail := rfl

end Store
end EventDispatch
