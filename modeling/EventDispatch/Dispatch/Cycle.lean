import EventDispatch.Dispatch.Dispatcher

/-!
# Cycles

**Input.** The paused classes and the time from which retries are judged.

**Algorithm.** A cycle asks who leads, lists what may run now, and goes through the list in order:
it claims each event and starts a worker for it.

**Rules.** Without the lead nothing is listed. On taking the lead the events left behind by an
earlier leader are sent back to wait first, and the lead is taken only if that worked. An event
without a handler and an event that is not granted are passed over; the first failure before the
list is made ends the cycle.

**Contents**

* `Dispatcher.checkLead`, `Dispatcher.openCycle`
* `Dispatcher.startOne`, `Dispatcher.startAll`, `Dispatcher.cycle`
-/

namespace EventDispatch
namespace Dispatcher

/-- Asks who leads, and takes or gives up the lead accordingly. -/
def checkLead (d : Dispatcher) : Except DispatchError Bool × Dispatcher :=
  match d.election.answer with
  | .error cause => (.error (.election cause), d)
  | .ok true =>
    if d.leading then (.ok true, d)
    else
      match d.access.resetProcessing d.store d.now with
      | .error cause => (.error (.store cause), d)
      | .ok (count, store) =>
        (.ok true,
          { d with store := store, leading := true }.tell
            (.info "Acquired leadership" [("reset", .number count)]))
  | .ok false =>
    if d.leading then (.ok false, { d with leading := false }.tell (.info "Lost leadership" []))
    else (.ok false, d)

/-- Begins a cycle: the events that may run at `now`, if this instance leads. -/
def openCycle (d : Dispatcher) (paused : List EventClass) (now : Instant) :
    Except DispatchError (List Event) × Dispatcher :=
  match d.checkLead with
  | (.error cause, d) => (.error cause, d)
  | (.ok false, d) => (.ok [], d)
  | (.ok true, d) =>
    match d.access.listDispatchable d.store (d.registry.filterFor paused) now with
    | .error cause => (.error (.store cause), d)
    | .ok candidates => (.ok candidates, d)

/-- Claims a listed event and starts a worker for it; says whether it did. -/
def startOne (d : Dispatcher) (e : Event) : Bool × Dispatcher :=
  let id := ("event_id", TraceValue.event e.id)
  let tag := ("event_type", TraceValue.text e.tag)
  match d.registry.find? e.tag with
  | none =>
    (false, d.tell
      (.warn "No handler registered for event type, leaving event untouched" [id, tag]))
  | some entry =>
    match d.access.claim d.store d.now e.id with
    | .error cause =>
      (false, d.tell (.error "Failed to claim event" [id, ("error", .text cause.message)]))
    | .ok (false, store) =>
      (false, { d with store := store }.tell (.debug "Event claimed elsewhere, skipping" [id]))
    | .ok (true, store) =>
      let told := { d with store := store }.tell
        (.debug "Dispatching event"
          [id, tag, ("owner", .text e.owner), ("retry_count", .number e.retryCount.toInt)])
      (true, told.spawn { e with status := .processing } entry.handler)

/-- Goes through listed events in order, and counts the workers started. -/
def startAll (d : Dispatcher) : List Event → Nat × Dispatcher
  | [] => (0, d)
  | e :: rest =>
    match d.startOne e with
    | (started, d') =>
      match startAll d' rest with
      | (count, d'') => ((if started then 1 else 0) + count, d'')

/-- One whole cycle: the number of workers started. -/
def cycle (d : Dispatcher) (paused : List EventClass) (now : Instant) :
    Except DispatchError Nat × Dispatcher :=
  match d.openCycle paused now with
  | (.error cause, d) => (.error cause, d)
  | (.ok candidates, d) =>
    match d.startAll candidates with
    | (count, d) => (.ok count, d)

/-- What the steps of a cycle leave alone. -/
structure Frame (d d' : Dispatcher) : Prop where
  uptime : d'.uptime = d.uptime
  settings : d'.settings = d.settings
  access : d'.access = d.access
  calls : d'.calls = d.calls
  lingering : d'.lingering = d.lingering

theorem Frame.refl (d : Dispatcher) : d.Frame d := ⟨rfl, rfl, rfl, rfl, rfl⟩

theorem checkLead_frame (d : Dispatcher) : d.Frame d.checkLead.2 := by
  unfold checkLead
  split
  · exact .refl d
  · split
    · exact .refl d
    · split <;> exact ⟨rfl, rfl, rfl, rfl, rfl⟩
  · split <;> exact ⟨rfl, rfl, rfl, rfl, rfl⟩

theorem openCycle_frame (d : Dispatcher) (paused : List EventClass) (now : Instant) :
    d.Frame (d.openCycle paused now).2 := by
  have h := d.checkLead_frame
  unfold openCycle
  split <;> rename_i heq <;> rw [heq] at h
  · exact h
  · exact h
  · split
    · exact h
    · exact ⟨h.uptime, h.settings, h.access, h.calls, h.lingering⟩

theorem startOne_frame (d : Dispatcher) (e : Event) : d.Frame (d.startOne e).2 := by
  unfold startOne
  dsimp only
  split
  · exact ⟨rfl, rfl, rfl, rfl, rfl⟩
  · split <;> exact ⟨rfl, rfl, rfl, rfl, rfl⟩

end Dispatcher
end EventDispatch
