import EventDispatch.Event.Basic

/-!
# What to run next

**Input.** The events being run, the events that are new or pending, a filter of tags, and the time.

**Rules.** Overdue pending events come before new ones, and in both groups the oldest first. Events
of a paused tag are left out. Events of an unknown tag are passed on, so that they can be reported,
but never hold anything back. Of the known ones, an event is left out if an event with its key is
being run or was taken before it, and a new one also if any pending event has its key, due or not:
a retry keeps its place in line.

**Contents**

* `DispatchFilter`: paused and known tags
* `sortByAge`: oldest first, ties in the given order
* `select`: the events to run
-/

namespace EventDispatch

/-- Which tags may run. -/
structure DispatchFilter where
  /-- Tags that must not run now. -/
  paused : List Tag
  /-- Tags with a handler; every tag, if absent. -/
  known : Option (List Tag)

namespace DispatchFilter

/-- Whether a tag must not run now. -/
def isPaused (f : DispatchFilter) (tag : Tag) : Bool := f.paused.contains tag

/-- Whether a tag has a handler. -/
def isKnown (f : DispatchFilter) (tag : Tag) : Bool := f.known.all (·.contains tag)

end DispatchFilter

namespace Selection

/-- The events, oldest first; those of one instant stay in order. -/
def sortByAge (events : List Event) : List Event :=
  events.mergeSort fun a b => a.created ≤ b.created

/-- The candidates in the order in which they are considered. -/
def candidates (upcoming : List Event) (now : Instant) : List Event :=
  sortByAge (upcoming.filter fun e => e.status = .pending && e.isOverdue now) ++
    sortByAge (upcoming.filter fun e => e.status = .new)

/-- The keys of the pending events that new ones have to wait for. -/
def pendingKeys (upcoming : List Event) (filter : DispatchFilter) : List Key :=
  (upcoming.filter fun e => e.status = .pending && filter.isKnown e.tag).map Event.key

/-- Whether a candidate of a known tag has to wait. -/
def mustWait (taken pending : List Key) (e : Event) : Bool :=
  taken.contains e.key || (e.status = .new && pending.contains e.key)

/-- Goes through the candidates; `taken` holds the keys that are in use. -/
def take (filter : DispatchFilter) (pending : List Key) : (taken : List Key) → List Event →
    List Event
  | _, [] => []
  | taken, e :: rest =>
    if filter.isPaused e.tag then take filter pending taken rest
    else if !filter.isKnown e.tag then e :: take filter pending taken rest
    else if mustWait taken pending e then take filter pending taken rest
    else e :: take filter pending (e.key :: taken) rest

end Selection

/-- The events to run, in the order in which they are started. -/
def select (processing upcoming : List Event) (filter : DispatchFilter) (now : Instant) :
    List Event :=
  Selection.take filter (Selection.pendingKeys upcoming filter) (processing.map Event.key)
    (Selection.candidates upcoming now)

end EventDispatch
