import EventDispatch.Dispatch.Leadership
import EventDispatch.Dispatch.Registry
import EventDispatch.Dispatch.Worker

/-!
# The dispatcher

**State.** The store with the way to it, the registry, the policy, the two clocks, the election, the
workers that have not ended, and what they share: permits, gates, and the count of calls for each
event. Besides the workers there are the handlers that were out of time: these were told to stop, and
nobody waits for their end. What was told is kept in a journal, last told first.

**Rules.** A worker holds a permit from its first action to its last. A handler that was told to stop
holds none: its worker goes on, and ends, without it. A gate lets through as many as it was given
permits for, in the order in which they came to it.

**Contents**

* `Settings`, `Settings.isSupported`
* `Dispatcher`, `Dispatcher.mint`, `Dispatcher.tell`
* `Dispatcher.hasFreePermit`, `Dispatcher.callsInProgress`, `Dispatcher.isLetThrough`
* `Dispatcher.spawn`
* `Dispatcher.vanish`, `Dispatcher.elapse`, `Dispatcher.timers`
-/

namespace EventDispatch

/-- How a dispatcher is tuned. -/
structure Settings where
  /-- The milliseconds between two cycles that nothing else starts. -/
  tick : Nat
  /-- What workers are told about retries. -/
  policy : Policy
  /-- How many workers may hold a permit at a time; any number, if absent. -/
  cap : Option Nat
deriving DecidableEq

namespace Settings

/-- The greatest number of permits that can be kept account of. -/
def greatestCap : Nat := 2305843009213693951

/-- Whether a dispatcher can be built with these settings. -/
def isSupported (s : Settings) : Bool := s.cap.all (· ≤ greatestCap)

/-- The number of permits; a cap of zero still leaves one. -/
def permits? (s : Settings) : Option Nat := s.cap.map (max 1)

end Settings

/-- The state of dispatching. -/
structure Dispatcher where
  /-- What is called for which tag. -/
  registry : Registry
  /-- How it is tuned. -/
  settings : Settings
  /-- Under which conditions the store is reached. -/
  access : Access
  /-- The events and their trails. -/
  store : Store
  /-- The number of identifiers given out. -/
  minted : Nat
  /-- The time of day. -/
  now : Instant
  /-- The milliseconds since the start. -/
  uptime : Nat
  /-- What says who leads. -/
  election : Election
  /-- Whether this instance took the lead and was not told since that it lost it. -/
  leading : Bool
  /-- The workers that have not ended, first started first. -/
  workers : List Worker
  /-- The number of workers started. -/
  started : Nat
  /-- The events whose handlers were told to stop and have not ended, last told first. -/
  lingering : List Event
  /-- The permits of each gate that nobody took yet. -/
  gates : List (String × Nat)
  /-- The number of arrivals at gates. -/
  arrivals : Nat
  /-- How often the handler was called for each event. -/
  calls : List (Uuid × Nat)
  /-- The most handlers that slept at a time. -/
  peak : Nat
  /-- What was told, last told first. -/
  journal : List Trace

namespace Dispatcher

/-- A dispatcher at its start. -/
def initial (registry : Registry) (settings : Settings) (access : Access) (election : Election)
    (now : Instant) : Dispatcher :=
  ⟨registry, settings, access, .empty, 0, now, 0, election, false, [], 0, [], [], 0, [], 0, []⟩

/-- The identifier given out next. -/
def nextId (d : Dispatcher) : Uuid := .ofSerial d.minted

/-- Uses up the identifier given out next. -/
def mint (d : Dispatcher) : Dispatcher := { d with minted := d.minted + 1 }

/-- Adds to the journal. -/
def tell (d : Dispatcher) (trace : Trace) : Dispatcher := { d with journal := trace :: d.journal }

/-- Adds to the journal, in order. -/
def tellAll (d : Dispatcher) (traces : List Trace) : Dispatcher :=
  { d with journal := traces.reverse ++ d.journal }

/-- The number of workers that hold a permit. -/
def holders (d : Dispatcher) : Nat := d.workers.countP Worker.holdsPermit

/-- Whether a permit is free. -/
def hasFreePermit (d : Dispatcher) : Bool := d.settings.permits?.all (d.holders < ·)

/-- The number of calls of handlers that are in progress: those that workers wait for, and those that
were told to stop and have not ended. -/
def callsInProgress (d : Dispatcher) : Nat :=
  d.workers.countP Worker.isHandling + d.lingering.length

/-- The number of handlers that sleep. -/
def sleepers (d : Dispatcher) : Nat := d.workers.countP Worker.isAsleep

/-- The permits of a gate. -/
def gatePermits (d : Dispatcher) (gate : String) : Nat := (d.gates.lookup gate).getD 0

/-- Sets the permits of a gate. -/
def setGate (d : Dispatcher) (gate : String) (permits : Nat) : Dispatcher :=
  { d with gates := (gate, permits) :: d.gates.filter fun g => g.1 ≠ gate }

/-- Gives a gate permits that stay until they are taken. -/
def release (d : Dispatcher) (gate : String) (permits : Nat) : Dispatcher :=
  d.setGate gate (d.gatePermits gate + permits)

/-- The number of workers that came to a gate before the given arrival and still stand there. -/
def aheadAt (d : Dispatcher) (gate : String) (ticket : Nat) : Nat :=
  d.workers.countP fun w =>
    match w.stage with
    | .handling _ _ (.atGate g t) _ => g = gate && t < ticket
    | _ => false

/-- Whether one who stands at a gate may pass. -/
def isLetThrough (d : Dispatcher) (gate : String) (ticket : Nat) : Bool :=
  d.aheadAt gate ticket < d.gatePermits gate

/-- How often the handler was called for an event. -/
def callsFor (d : Dispatcher) (id : Uuid) : Nat := (d.calls.lookup id).getD 0

/-- Counts a call for an event. -/
def countCall (d : Dispatcher) (id : Uuid) : Dispatcher :=
  { d with calls := (id, d.callsFor id + 1) :: d.calls.filter fun c => c.1 ≠ id }

/-- Starts a worker for a claimed event. -/
def spawn (d : Dispatcher) (e : Event) (h : Handler) : Dispatcher :=
  { d with workers := d.workers ++ [.spawned d.started e h], started := d.started + 1 }

/-- Puts a worker in the place of the one with its number. -/
def putWorker (d : Dispatcher) (w : Worker) : Dispatcher :=
  { d with workers := d.workers.map fun v => if v.serial = w.serial then w else v }

/-- Takes an ended worker off the list. -/
def dropWorker (d : Dispatcher) (serial : Nat) : Dispatcher :=
  { d with workers := d.workers.filter fun v => v.serial ≠ serial }

/-- Lets a handler end that was told to stop. -/
def vanish (d : Dispatcher) (place : Nat) : Dispatcher :=
  { d with lingering := d.lingering.eraseIdx place }

/-- Lets time pass on both clocks. -/
def elapse (d : Dispatcher) (milliseconds : Nat) : Dispatcher :=
  { d with uptime := d.uptime + milliseconds, now := d.now.shift (milliseconds * 1000000) }

/-- The points of the uptime at which some worker goes on by itself. -/
def timers (d : Dispatcher) : List Nat := d.workers.flatMap Worker.timers

end Dispatcher
end EventDispatch
