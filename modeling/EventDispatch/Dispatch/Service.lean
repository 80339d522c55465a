import EventDispatch.Dispatch.Cycle
import EventDispatch.Dispatch.PauseSwitch
import EventDispatch.Dispatch.Progress
import EventDispatch.Dispatch.Wakeups

/-!
# The service

**State.** A dispatcher, the switch, the requests for a cycle, the signal to stop, and the loop that
runs cycles.

**Algorithm.** `loopStep` is the next step of the loop. A loop that waits takes up, in this order: the
signal to stop, a request for a cycle, a change of the paused classes, and the tick. Requests that
wait together start one cycle. A cycle under way takes one step to begin and one for each event that
it goes through.

**Rules.** A loop that ended never goes on, and nobody receives requests any more. Workers are not
affected by its end. A loop without a period between its ticks ends as it starts.

**Contents**

* `Phase`, `Loop`, `Service`, `Service.build?`
* `Service.start`, `Service.wake?`, `Service.beginCycle`, `Service.finishCycle`
* `Service.loopStep`
-/

namespace EventDispatch

/-- How far the loop is. -/
inductive Phase where
  /-- It was not started. -/
  | unstarted
  /-- It waits for a reason to run a cycle. -/
  | waiting
  /-- It received a request and takes those that wait behind it, so many so far. -/
  | draining (hint : String) (coalesced : Nat)
  /-- It is about to begin a cycle. -/
  | starting
  /-- It goes through the events of a cycle, with so many workers started so far. -/
  | claiming (candidates : List Event) (count : Nat)
  /-- It ended. -/
  | ended

/-- The loop. -/
structure Loop where
  /-- How far it is. -/
  phase : Phase
  /-- Who looks out for changes of the switch. -/
  watcher : Watcher
  /-- The uptime at which the next tick is due. -/
  nextTick : Nat

/-- The state of the whole service. -/
structure Service where
  /-- The dispatcher. -/
  dispatcher : Dispatcher
  /-- The paused classes. -/
  pauses : PauseSwitch
  /-- The requests for a cycle. -/
  wakeups : Wakeups
  /-- The signal to stop. -/
  shutdown : ShutdownSignal
  /-- The loop. -/
  loop : Loop
  /-- How many listeners answer the signal to reload the configuration. -/
  reloaders : Nat

/-- The digits of a number of thousandths, without the zeros at their end. -/
def thousandthsText (n : Nat) : String :=
  String.ofList ((([n / 100 % 10, n / 10 % 10, n % 10].map Nat.digitChar).reverse.dropWhile
    (· = '0')).reverse)

/-- An amount of milliseconds in a listing of values. -/
def intervalText (milliseconds : Nat) : String :=
  if milliseconds = 0 then "0ns"
  else if milliseconds < 1000 then toString milliseconds ++ "ms"
  else if milliseconds % 1000 = 0 then toString (milliseconds / 1000) ++ "s"
  else toString (milliseconds / 1000) ++ "." ++ thousandthsText (milliseconds % 1000) ++ "s"

namespace Service

/-- A service around a dispatcher, its loop not started. -/
def ofDispatcher (d : Dispatcher) : Service :=
  ⟨d, .ofClasses [], .empty, .initial, ⟨.unstarted, ⟨0⟩, 0⟩, 0⟩

/-- Builds a service; none if its settings are not supported. -/
def build? (registry : Registry) (settings : Settings) (access : Access) (election : Election)
    (now : Instant) : Option Service :=
  if settings.isSupported then
    some (ofDispatcher (.initial registry settings access election now))
  else none

/-- Adds to the journal. -/
def tell (s : Service) (trace : Trace) : Service := { s with dispatcher := s.dispatcher.tell trace }

/-- Moves the loop to a phase. -/
def enter (s : Service) (phase : Phase) : Service := { s with loop := { s.loop with phase } }

/-- Ends the loop: nobody receives requests any more. -/
def endLoop (s : Service) : Service :=
  { s with wakeups := s.wakeups.close, loop := { s.loop with phase := .ended } }

/-- Whether the loop was started and did not end. -/
def isRunning (s : Service) : Bool :=
  match s.loop.phase with
  | .unstarted | .ended => false
  | _ => true

/-- Starts the loop, unless it was started before. The first tick is due at once. -/
def start (s : Service) : Service :=
  match s.loop.phase with
  | .unstarted =>
    let d := s.dispatcher
    let told := s.tell (.info "Dispatcher started"
      [("tick_interval", .text (intervalText d.settings.tick)),
        ("handlers", .number d.registry.size)])
    if d.settings.tick = 0 then told.endLoop
    else { told with loop := ⟨.waiting, .subscribe s.pauses, d.uptime⟩ }
  | _ => s

/-- Whether the tick is due. -/
def tickDue (s : Service) : Bool :=
  0 < s.dispatcher.settings.tick && s.loop.nextTick ≤ s.dispatcher.uptime

/-- Whether there is a change of the switch that the loop has not seen. -/
def pausesChanged (s : Service) : Bool := s.loop.watcher.seen ≠ s.pauses.version

/-- What a loop that waits takes up, if there is anything. -/
def wake? (s : Service) : Option Service :=
  match s.shutdown.poll? with
  | some (.stop, shutdown) =>
    some ((({ s with shutdown }.tell (.info "Dispatcher received shutdown signal" [])).tell
      (.info "Dispatcher shutdown complete" [])).endLoop)
  | some (.goOn, shutdown) => some { s with shutdown }
  | none =>
    match s.wakeups.receive? with
    | some (hint, wakeups) => some ({ s with wakeups }.enter (.draining hint 0))
    | none =>
      if s.pausesChanged then
        some ({ s with loop := ⟨.starting, .subscribe s.pauses, s.loop.nextTick⟩ }.tell
          (.debug "Paused classes changed" []))
      else if s.tickDue then
        some { s with
          loop := ⟨.starting, s.loop.watcher, s.dispatcher.uptime + s.dispatcher.settings.tick⟩ }
      else none

/-- Begins a cycle. -/
def beginCycle (s : Service) : Service :=
  match s.dispatcher.openCycle s.pauses.classes s.dispatcher.now with
  | (.error cause, dispatcher) =>
    ({ s with dispatcher }.tell
      (.error "Dispatch cycle failed" [("error", .text cause.message)])).enter .waiting
  | (.ok candidates, dispatcher) => { s with dispatcher }.enter (.claiming candidates 0)

/-- Ends a cycle that started so many workers. -/
def finishCycle (s : Service) (count : Nat) : Service :=
  let told :=
    if count = 0 then s else s.tell (.debug "Dispatched events" [("count", .number count)])
  told.enter .waiting

/-- The next step of the loop, if it has one. -/
def loopStep (s : Service) : Option Service :=
  match s.loop.phase with
  | .unstarted => none
  | .ended => none
  | .waiting => s.wake?
  | .draining hint coalesced =>
    match s.wakeups.receive? with
    | some (_, wakeups) => some ({ s with wakeups }.enter (.draining hint (coalesced + 1)))
    | none =>
      some ((s.tell (.debug "Dispatch triggered"
        [("hint", .text hint), ("coalesced", .number coalesced)])).enter .starting)
  | .starting => some s.beginCycle
  | .claiming [] count => some (s.finishCycle count)
  | .claiming (e :: rest) count =>
    match s.dispatcher.startOne e with
    | (started, dispatcher) =>
      some ({ s with dispatcher }.enter
        (.claiming rest (if started then count + 1 else count)))

end Service
end EventDispatch
