import EventDispatch.Dispatch.Operate
import EventDispatch.Dispatch.Progress

/-!
# Runs of the service

**Input.** A service and what happens to it next: its loop goes on by a step, one
of its workers does, a handler ends that was told to stop, somebody calls it from
outside, the election or the store changes its answers, time passes, or the clock is
set.

**Rule.** A run is any sequence of such moves.  Nothing is said about their order,
so the steps of the loop, of the workers and of the callers interleave in every
way.  A family of runs is given by the moves that it allows, which may depend on
the service at that point.

**Results.** What the first state of a run has and every allowed move keeps, holds
wherever the run leads (`Reaches.induct`).
-/

namespace EventDispatch

/-- What happens to the service next. -/
inductive Move where
  /-- The loop goes on by a step. -/
  | loop
  /-- The worker of a number goes on by a step. -/
  | work (serial : Nat)
  /-- An event is registered. -/
  | register (tag : Tag) (owner : String) (deadline : Duration)
      (payload : Except Json.EncodeError Json)
  /-- An operator sends expired events back to wait. -/
  | resetStale
  /-- Somebody who kept the logger of an event performs an action for it. -/
  | act (p : Policy) (e : Event) (action : Action)
  /-- A cycle is requested. -/
  | trigger (hint : String)
  /-- A class is paused. -/
  | pause (c : EventClass)
  /-- A class is resumed. -/
  | resume (c : EventClass)
  /-- Another set of classes is paused. -/
  | setPaused (classes : List EventClass)
  /-- The election changes its answer. -/
  | elect (election : Election)
  /-- The store is reached under other conditions. -/
  | hinder (access : Access)
  /-- Time passes on both clocks. -/
  | elapse (milliseconds : Nat)
  /-- The time of day is set. -/
  | setClock (now : Instant)
  /-- A gate is given permits. -/
  | release (gate : String) (permits : Nat)
  /-- A handler ends that was told to stop, if there is one in this place. -/
  | vanish (place : Nat)
  /-- The loop is started. -/
  | start
  /-- The loop is told whether to stop. -/
  | shutdown (stop : Bool)
  /-- The sender of the signal to stop goes. -/
  | abandon

namespace Dispatcher

/-- Lets the worker of a number go on by a step, if it has one. -/
def workOn? (d : Dispatcher) (serial : Nat) : Option Dispatcher :=
  match d.workers.find? fun w => w.serial = serial with
  | none => none
  | some w =>
    match d.workerStep w with
    | none => none
    | some (d', none) => some (d'.dropWorker w.serial)
    | some (d', some stage) => some (d'.putWorker { w with stage })

end Dispatcher

namespace Service

/-- The service after a move; none if the move is not possible. -/
def after? (s : Service) : Move → Option Service
  | .loop => s.loopStep
  | .work serial => (s.dispatcher.workOn? serial).map fun d => { s with dispatcher := d }
  | .register tag owner deadline payload => some (s.registerEvent tag owner deadline payload).2
  | .resetStale => some s.resetStale.2
  | .act p e action => some { s with dispatcher := s.dispatcher.performUnder p e action }
  | .trigger hint => some (s.trigger hint).2
  | .pause c => some (s.pauseClass c).2
  | .resume c => some (s.resumeClass c).2
  | .setPaused classes => some (s.setPaused classes)
  | .elect election => some { s with dispatcher := { s.dispatcher with election } }
  | .hinder access => some { s with dispatcher := { s.dispatcher with access } }
  | .elapse milliseconds =>
    some { s with dispatcher := s.dispatcher.elapse milliseconds }
  | .setClock now => some { s with dispatcher := { s.dispatcher with now } }
  | .release gate permits => some { s with dispatcher := s.dispatcher.release gate permits }
  | .vanish place => some { s with dispatcher := s.dispatcher.vanish place }
  | .start => some s.start
  | .shutdown stop => some (s.sendShutdown stop).2
  | .abandon => some s.dropShutdown

/-- The services that allowed moves lead to. -/
inductive Reaches (allowed : Service → Move → Bool) (s₀ : Service) : Service → Prop
  | refl : Reaches allowed s₀ s₀
  | move {s s' : Service} (m : Move) :
      Reaches allowed s₀ s → allowed s m = true → s.after? m = some s' → Reaches allowed s₀ s'

/-- Makes moves one after the other, as long as each is allowed and possible. -/
def follow? (allowed : Service → Move → Bool) : Service → List Move → Option Service
  | s, [] => some s
  | s, m :: rest => if allowed s m then (s.after? m).bind (follow? allowed · rest) else none

theorem Reaches.follow? {allowed : Service → Move → Bool} {s₀ s s' : Service}
    (h : Reaches allowed s₀ s) {moves : List Move}
    (hrun : s.follow? allowed moves = some s') : Reaches allowed s₀ s' := by
  induction moves generalizing s with
  | nil =>
    cases hrun
    exact h
  | cons m rest ih =>
    simp only [Service.follow?] at hrun
    split at hrun
    · next hm =>
      obtain ⟨t, ht, hrest⟩ := Option.bind_eq_some_iff.1 hrun
      exact ih (.move m h hm ht) hrest
    · cases hrun

/-- A run of allowed moves is a run. -/
theorem foldlM_of_follow? {allowed : Service → Move → Bool} {s s' : Service} {moves : List Move}
    (h : s.follow? allowed moves = some s') : moves.foldlM Service.after? s = some s' := by
  induction moves generalizing s with
  | nil => exact h
  | cons m rest ih =>
    simp only [Service.follow?] at h
    split at h
    · obtain ⟨t, ht, hrest⟩ := Option.bind_eq_some_iff.1 h
      exact Option.bind_eq_some_iff.2 ⟨t, ht, ih hrest⟩
    · cases h

theorem Reaches.trans {allowed : Service → Move → Bool} {s₀ s s' : Service}
    (h : Reaches allowed s₀ s) (h' : Reaches allowed s s') : Reaches allowed s₀ s' := by
  induction h' with
  | refl => exact h
  | move m _ hm hafter ih => exact .move m ih hm hafter

/-- Where more is allowed, every run is still one. -/
theorem Reaches.mono {allowed allowed' : Service → Move → Bool} {s₀ s : Service}
    (hmore : ∀ s m, allowed s m = true → allowed' s m = true) (h : Reaches allowed s₀ s) :
    Reaches allowed' s₀ s := by
  induction h with
  | refl => exact .refl
  | move m _ hm hs ih => exact .move m ih (hmore _ m hm) hs

/-- What the start has and every allowed move keeps, holds throughout. -/
theorem Reaches.induct {allowed : Service → Move → Bool} {s₀ : Service} {P : Service → Prop}
    (hstart : P s₀)
    (hmove : ∀ s m s', P s → allowed s m = true → s.after? m = some s' → P s')
    {s : Service} (h : Reaches allowed s₀ s) : P s := by
  induction h with
  | refl => exact hstart
  | move m _ hm hs ih => exact hmove _ m _ ih hm hs

/-- The candidates that the cycle under way has yet to go through. -/
def candidates (s : Service) : List Event :=
  match s.loop.phase with
  | .claiming candidates _ => candidates
  | _ => []

/-- Whether a move, if it registers an event, gives it an identifier that no event has. -/
def givesFresh (s : Service) : Move → Bool
  | .register .. => (s.dispatcher.store.find? s.dispatcher.nextId).isNone
  | _ => true

end Service
end EventDispatch
