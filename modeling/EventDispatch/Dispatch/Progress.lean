import EventDispatch.Dispatch.Dispatcher

/-!
# How workers go on

**Algorithm.** `workerStep` is the next step of one worker: it takes a permit, performs one action,
calls its handler, lets the handler go on, or ends it. A worker that waits for a permit, a gate or a
point in time has no step. `runWorker` repeats the step until there is none, and `runWorkers` does
so for every worker, first started first.

**Rules.** A handler that is out of time is told to stop before it goes on; its worker does not wait
for its end. A handler whose limit is no time at all is never called.

**Results.** Each step leaves less to do, so every worker comes to a standstill.

**Contents**

* `Stage.remaining`
* `Dispatcher.perform`, `Dispatcher.log`
* `Dispatcher.beginCall`, `Dispatcher.handlingStep`, `Dispatcher.workerStep`
* `Dispatcher.runWorker`, `Dispatcher.runWorkers`
-/

namespace EventDispatch

/-- What a worker has yet to do: a later stage counts less, and within a stage its actions. -/
def Stage.remaining : Stage → Nat × Nat
  | .queued => (3, 0)
  | .opening todo => (2, todo.length)
  | .handling todo _ .none _ => (1, 2 * todo.length)
  | .handling todo _ _ _ => (1, 2 * todo.length + 1)
  | .closing todo => (0, todo.length)

namespace Dispatcher

/-- Performs one action for an event under a policy. -/
def performUnder (d : Dispatcher) (p : Policy) (e : Event) (action : Action) : Dispatcher :=
  let effect := action.perform p d.access d.store d.now d.nextId e
  { d with
    store := effect.store
    minted := d.minted + 1
    journal := effect.traces.reverse ++ d.journal }

/-- Performs one action of a worker. -/
def perform (d : Dispatcher) (e : Event) (action : Action) : Dispatcher :=
  d.performUnder d.settings.policy e action

/-- Writes a row for an event from outside of a worker, with the effect that the level has. -/
def log (d : Dispatcher) (e : Event) (grace : Duration) (level : LogLevel) (message : String) :
    Dispatcher :=
  (logActions e level message).foldl
    (fun d action => d.performUnder { d.settings.policy with grace } e action) d

/-- Calls the handler of a worker. -/
def beginCall (d : Dispatcher) (w : Worker) : Dispatcher × Stage :=
  if w.event.deadline.nanos = 0 then (d, .closing (timeoutActions d.settings.policy w.event))
  else
    let play := w.handler.play (d.callsFor w.event.id) w.event
    (d.countCall w.event.id,
      .handling (play.deeds.flatMap (Deed.actions w.event)) play.ending .none
        (d.uptime + timeLimit w.event.deadline))

/-- The next step of a handler that runs. -/
def handlingStep (d : Dispatcher) (e : Event) (todo : List Action) (ending : Ending)
    (pause : Pause) (limit : Nat) : Option (Dispatcher × Stage) :=
  if limit ≤ d.uptime then
    some ({ d with lingering := e :: d.lingering }, .closing (timeoutActions d.settings.policy e))
  else
    match pause, todo with
    | .asleep wake, todo =>
      if wake ≤ d.uptime then some (d, .handling todo ending .none limit) else none
    | .atGate gate ticket, todo =>
      if d.isLetThrough gate ticket then
        some (d.setGate gate (d.gatePermits gate - 1), .handling todo ending .none limit)
      else none
    | .none, [] => some (d, .closing (closingActions d.settings.policy e ending))
    | .none, .sleep milliseconds :: rest =>
      some ({ d with peak := max d.peak (d.sleepers + 1) },
        .handling rest ending (.asleep (d.uptime + milliseconds)) limit)
    | .none, .pass gate :: rest =>
      some ({ d with arrivals := d.arrivals + 1 },
        .handling rest ending (.atGate gate d.arrivals) limit)
    | .none, action :: rest => some (d.perform e action, .handling rest ending .none limit)

/-- The next step of a worker, if it has one: the stage after it, or none if the worker ends. -/
def workerStep (d : Dispatcher) (w : Worker) : Option (Dispatcher × Option Stage) :=
  match w.stage with
  | .queued => if d.hasFreePermit then some (d, some (.opening (openingActions w.event))) else none
  | .opening [] => some ((d.beginCall w).1, some (d.beginCall w).2)
  | .opening (action :: rest) => some (d.perform w.event action, some (.opening rest))
  | .handling todo ending pause limit =>
    (d.handlingStep w.event todo ending pause limit).map fun (d', stage) => (d', some stage)
  | .closing (action :: rest) => some (d.perform w.event action, some (.closing rest))
  | .closing [] => some (d, none)

/-- What is left counts less, in the order of `Stage.remaining`. -/
def Shrinks (after before : Nat × Nat) : Prop :=
  after.1 < before.1 ∨ after.1 = before.1 ∧ after.2 < before.2

/-- A step of a handler leaves less to do. -/
theorem shrinks_handlingStep {d d' : Dispatcher} {e : Event} {todo : List Action}
    {ending : Ending} {pause : Pause} {limit : Nat} {stage : Stage}
    (h : d.handlingStep e todo ending pause limit = some (d', stage)) :
    Shrinks stage.remaining (Stage.handling todo ending pause limit).remaining := by
  unfold handlingStep at h
  split at h
  · cases h
    cases pause <;> simp [Shrinks, Stage.remaining]
  · split at h
    · split at h
      · cases h
        simp [Shrinks, Stage.remaining]
      · cases h
    · split at h
      · cases h
        simp [Shrinks, Stage.remaining]
      · cases h
    all_goals
      cases h
      simp [Shrinks, Stage.remaining]
    all_goals omega

/-- Calling the handler ends the opening. -/
theorem shrinks_beginCall (d : Dispatcher) (w : Worker) :
    Shrinks (d.beginCall w).2.remaining (Stage.opening []).remaining := by
  unfold beginCall
  split <;> simp [Shrinks, Stage.remaining]

/-- A step of a worker leaves less to do. -/
theorem shrinks_workerStep {d d' : Dispatcher} {w : Worker} {stage : Stage}
    (h : d.workerStep w = some (d', some stage)) :
    Shrinks stage.remaining w.stage.remaining := by
  unfold workerStep at h
  split at h
  · next hs =>
    split at h
    · cases h
      simp [hs, Shrinks, Stage.remaining]
    · cases h
  · next hs =>
    cases h
    rw [hs]
    exact shrinks_beginCall d w
  · next hs =>
    cases h
    simp [hs, Shrinks, Stage.remaining]
  · next hs =>
    obtain ⟨⟨d₁, stage₁⟩, hstep, heq⟩ := Option.map_eq_some_iff.1 h
    cases heq
    rw [hs]
    exact shrinks_handlingStep hstep
  · next hs =>
    cases h
    simp [hs, Shrinks, Stage.remaining]
  · cases h

/-- Lets a worker go on until it waits or has ended. -/
def runWorker (d : Dispatcher) (w : Worker) : Dispatcher :=
  match h : d.workerStep w with
  | none => d
  | some (d', none) => d'.dropWorker w.serial
  | some (d', some stage) =>
    have := shrinks_workerStep h
    runWorker (d'.putWorker { w with stage }) { w with stage }
termination_by w.stage.remaining
decreasing_by
  rcases this with hlt | ⟨heq, hlt⟩
  · exact Prod.Lex.left _ _ hlt
  · exact Prod.lex_def.2 (.inr ⟨heq, hlt⟩)

/-- Lets every worker go on until it waits or has ended. -/
def runWorkers (d : Dispatcher) : Dispatcher := d.workers.foldl runWorker d

end Dispatcher
end EventDispatch
