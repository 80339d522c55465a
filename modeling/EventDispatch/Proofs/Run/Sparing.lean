import EventDispatch.Proofs.Run.Tended
import Mathlib

/-!
# Resets that spare live workers

**Input.** A run of one dispatcher that keeps the lead, on a clock that nobody sets.
An operator may send expired events back at any time.  The run is prompt: no time
passes while a worker waits for its permit or writes its first row.  As in every run on
a steady clock, none passes beyond the limit of a handler that runs, nor while a worker
performs its last actions (`Worker.maySpend`).

**Invariant.** The claim of an event that is being run lies no further back than the
call of its handler, so the event expires no earlier than its handler is out of time.

**Results.** `reset_spares_live_workers`: a reset leaves the event of every live
worker as it is, and no event ever has two workers.  Without promptness neither
holds: in `reset_of_queuedMoves` an event expires while its worker waits for the one
permit, is sent back, and gets a second worker.
-/

namespace EventDispatch
namespace Service

/-- A reset leaves the event of every live worker as it is, and no event has two workers. -/
theorem reset_spares_live_workers {registry : Registry} {settings : Settings}
    {access : Access} {election : Election} {now : Instant} {s : Service}
    (h : Reaches (isTimely true)
      (.ofDispatcher (.initial registry settings access election now)) s) :
    (∀ w ∈ s.dispatcher.workers, w.isLive s.dispatcher.uptime = true →
      ∀ e ∈ s.dispatcher.store.events, e.id = w.event.id →
        e ∈ s.resetStale.2.dispatcher.store.events) ∧
    s.dispatcher.workers.Pairwise fun v w => v.event.id ≠ w.event.id := by
  obtain ⟨hlaned, htended, -⟩ := tended_of_reaches h
  refine ⟨fun w hw hlive e he hid => ?_, htended.apart⟩
  obtain ⟨-, x, hx, hxid, -, -, hfits⟩ := htended.tended w hw
  have heq : x = e := hlaned.ids.eq_of_id_eq hx he (hxid.trans hid.symm)
  subst heq
  have hkept := effectOn_resetStale_of_isLive s.core.store hfits hlive (htended.sound x hx)
  have hevents : s.resetStale.2.core.store = s.core.store ∨
      s.resetStale.2.core.store = s.core.store.after (.resetStale s.core.now s.core.now) := by
    generalize hafter : s.resetStale.2.core = after
    have hstep := hafter ▸ step_resetStale s
    cases hstep with
    | keep | repaused => exact Or.inl rfl
    | staleReset => exact Or.inr rfl
  change x ∈ s.resetStale.2.core.store.events
  rcases hevents with hsame | hreset
  · rw [hsame]
    exact hx
  · rw [hreset]
    exact (Store.mem_after hlaned.ids).2 (Or.inl ⟨x, hx, hkept⟩)

/-- A registry of two tags that name two resources. -/
def twoLanes : Registry :=
  ⟨[("a:r", ⟨.team, .ofScripts [⟨[.act (.sleep 600000)], .outcome .done⟩]⟩),
    ("b:q", ⟨.team, .ofScripts [⟨[.act (.sleep 600000)], .outcome .done⟩]⟩)]⟩

/-- A service with so many permits. -/
def twoLanesStart (cap : Option Nat) : Service :=
  .ofDispatcher (.initial twoLanes ⟨1000, ⟨.ofSeconds 180, 5⟩, cap⟩ .unhindered .always .epoch)

/-- Two handlers are called at once, and 299 seconds pass. -/
def promptMoves : List Move :=
  [.register "a:r" "o" (.ofSeconds 3600) (.ok .null),
    .register "b:q" "o" (.ofSeconds 300) (.ok .null),
    .start, .loop, .loop, .loop, .loop, .loop, .loop, .loop,
    .work 0, .work 0, .work 0, .work 0, .work 0,
    .work 1, .work 1, .work 1, .work 1, .work 1,
    .elapse 299000]

theorem reset_spares_live_workers_of_promptMoves :
    ∃ s, Reaches (isTimely true) (twoLanesStart none) s ∧
      s.dispatcher.workers.map (·.isLive s.dispatcher.uptime) = [true, true] ∧
      (∀ w ∈ s.dispatcher.workers, w.isLive s.dispatcher.uptime = true →
        ∀ e ∈ s.dispatcher.store.events, e.id = w.event.id →
          e ∈ s.resetStale.2.dispatcher.store.events) ∧
      s.dispatcher.workers.Pairwise fun v w => v.event.id ≠ w.event.id := by
  have hrun : ((twoLanesStart none).follow? (isTimely true) promptMoves).map
      (fun s => s.dispatcher.workers.map (·.isLive s.dispatcher.uptime)) =
        some [true, true] := by cbv
  obtain ⟨s, hs, hlive⟩ := Option.map_eq_some_iff.1 hrun
  have hreaches : Reaches (isTimely true) (twoLanesStart none) s := Reaches.refl.follow? hs
  exact ⟨s, hreaches, hlive, reset_spares_live_workers hreaches⟩

/-- The moves of a run in which workers may be kept waiting and an operator may send
expired events back. -/
def isOperated (s : Service) (m : Move) : Bool :=
  match m with
  | .resetStale => true
  | _ => s.isTimely false m

/-- With one permit, the second worker waits for 301 seconds. -/
def queuedMoves : List Move :=
  [.register "a:r" "o" (.ofSeconds 3600) (.ok .null),
    .register "b:q" "o" (.ofSeconds 300) (.ok .null),
    .start, .loop, .loop, .loop, .loop, .loop, .loop, .loop,
    .work 0, .work 0, .work 0, .work 0, .work 0,
    .elapse 301000]

/-- The cycle that the reset requests. -/
def requestedMoves : List Move := [.elapse 1, .loop, .loop, .loop, .loop]

/-- The event of a worker that waits for its permit is sent back by a reset, and the
next cycle starts a second worker for it. -/
theorem reset_of_queuedMoves :
    ∃ s, Reaches isOperated (twoLanesStart (some 1)) s ∧
      (∃ w ∈ s.dispatcher.workers, w.isLive s.dispatcher.uptime = true ∧
        ∃ e ∈ s.resetStale.2.dispatcher.store.events,
          e.id = w.event.id ∧ e.status = .pending) ∧
      ∃ s', Reaches isOperated s.resetStale.2 s' ∧
        ∃ v ∈ s'.dispatcher.workers, ∃ w ∈ s'.dispatcher.workers, v.serial ≠ w.serial ∧
          v.event.id = w.event.id ∧ v.isLive s'.dispatcher.uptime = true := by
  have hrun : ((twoLanesStart (some 1)).follow? isOperated queuedMoves).map (fun s =>
      (s.dispatcher.workers.any (fun w => w.isLive s.dispatcher.uptime &&
          s.resetStale.2.dispatcher.store.events.any fun e =>
            e.id = w.event.id && e.status = .pending),
        (s.resetStale.2.follow? isOperated requestedMoves).map fun s' =>
          s'.dispatcher.workers.any fun v => s'.dispatcher.workers.any fun w =>
            v.serial ≠ w.serial && v.event.id = w.event.id && v.isLive s'.dispatcher.uptime)) =
      some (true, some true) := by cbv
  obtain ⟨s, hs, hview⟩ := Option.map_eq_some_iff.1 hrun
  obtain ⟨hreset, hagain⟩ := Prod.mk.inj hview
  obtain ⟨s', hs', htwice⟩ := Option.map_eq_some_iff.1 hagain
  refine ⟨s, Reaches.refl.follow? hs, ?_, s', Reaches.refl.follow? hs', ?_⟩
  · obtain ⟨w, hw, hpending⟩ := List.any_eq_true.1 hreset
    obtain ⟨hlive, hstored⟩ := Bool.and_eq_true_iff.1 hpending
    obtain ⟨e, he, heq⟩ := List.any_eq_true.1 hstored
    simp only [Bool.and_eq_true, decide_eq_true_eq] at heq
    exact ⟨w, hw, hlive, e, he, heq⟩
  · obtain ⟨v, hv, hsecond⟩ := List.any_eq_true.1 htwice
    obtain ⟨w, hw, hboth⟩ := List.any_eq_true.1 hsecond
    simp only [Bool.and_eq_true, decide_eq_true_eq] at hboth
    exact ⟨v, hv, w, hw, hboth.1.1, hboth.1.2, hboth.2⟩

end Service
end EventDispatch
