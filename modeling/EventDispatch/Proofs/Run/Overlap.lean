import EventDispatch.Proofs.Run.Tended
import Mathlib

/-!
# Handlers of one key

**Input.** A run of one dispatcher that keeps the lead, on a clock that nobody sets,
and in which no operator sends events back.  Handlers write to the trail, sleep and
stand at gates as they like, and end in any way; the steps of the loop and of the
workers come in any order.  Timers fire when they are due: no time passes beyond the limit
of a handler that runs, and none while a worker performs its last actions
(`Worker.maySpend`).

**Invariant.** One worker for each event, whose stored event fits the stage of the
worker; and at most one event of a lane has its turn and has not ended.

**Results.** `overlap_only_after_fatal`: of two handlers of one key that run at a
time, one has logged a fatal failure and goes on although its event has failed.  So
handlers that never log a fatal failure do not overlap.  The others may:
`overlap_of_fatalMoves` is a run in which they do.  A handler that was told to stop and has
not ended is none of those that are compared.
-/

namespace EventDispatch

namespace Service

/-- The handler of a worker logs fatal failures, and its event has failed. -/
def HasFailed (s : Service) (w : Worker) : Prop :=
  w.handler.LogsFatal w.event ∧
    ∃ e ∈ s.dispatcher.store.events, e.id = w.event.id ∧ e.status = .failed

section Overlap

variable {registry : Registry} {settings : Settings} {access : Access}
  {election : Election} {now : Instant} {s : Service}

/-- While a handler runs, its event has ended only if it has failed. -/
theorem hasFailed_of_isTerminal {prompt : Bool} {w : Worker} (hrunning : w.isHandling = true)
    {e : Event} (he : e ∈ s.dispatcher.store.events) (hid : e.id = w.event.id)
    (hfits : w.Fits prompt s.core.now s.core.uptime e) (hended : e.status.isTerminal = true) :
    s.HasFailed w := by
  cases hstage : w.stage with
  | handling todo ending pause limit =>
    simp only [Worker.Fits, hstage] at hfits
    obtain ⟨-, -, -, hholds⟩ := hfits
    cases hholds with
    | runs hstatus | rests hstatus => simp [hstatus, Status.isTerminal] at hended
    | failed hstatus hfatal => exact ⟨hfatal, e, he, hid, hstatus⟩
  | queued | opening | closing => simp [Worker.isHandling, hstage] at hrunning

/-- Two events of workers with one key are in one lane. -/
theorem sameLane_of_tends {v w : Worker} (hkey : v.event.key = w.event.key) {a b : Event}
    (htagA : a.tag = v.event.tag) (hownerA : a.owner = v.event.owner)
    (htagB : b.tag = w.event.tag) (hownerB : b.owner = w.event.owner)
    (hv : ∃ entry, registry.find? v.event.tag = some entry ∧ v.handler = entry.handler)
    (hw : ∃ entry, registry.find? w.event.tag = some entry ∧ w.handler = entry.handler) :
    registry.SameLane a b := by
  obtain ⟨entryV, hfindV, -⟩ := hv
  obtain ⟨entryW, hfindW, -⟩ := hw
  refine ⟨?_, ?_, ?_⟩
  · simpa [Event.key, Event.resource, htagA, hownerA, htagB, hownerB] using hkey
  · simp [Registry.contains, htagA, hfindV]
  · simp [Registry.contains, htagB, hfindW]

/-- Of two handlers of one key that run at a time, one goes on although it has logged
a fatal failure; handlers that never do so do not overlap. -/
theorem overlap_only_after_fatal
    (h : Reaches (isTimely false)
      (.ofDispatcher (.initial registry settings access election now)) s) :
    (s.dispatcher.workers.Pairwise fun v w =>
      v.event.key = w.event.key → v.isHandling = true → w.isHandling = true →
        s.HasFailed v ∨ s.HasFailed w) ∧
    ((∀ tag entry e, registry.find? tag = some entry → ¬ entry.handler.LogsFatal e) →
      s.dispatcher.workers.Pairwise fun v w =>
        v.event.key = w.event.key → ¬ (v.isHandling = true ∧ w.isHandling = true)) := by
  obtain ⟨hlaned, htended, hregistry⟩ := tended_of_reaches h
  have hfailed : ∀ {v w : Worker}, v ∈ s.dispatcher.workers → w ∈ s.dispatcher.workers →
      v.event.id ≠ w.event.id → v.event.key = w.event.key → v.isHandling = true →
      w.isHandling = true → s.HasFailed v ∨ s.HasFailed w := by
    intro v w hv hw hapart hkey hrunningV hrunningW
    obtain ⟨hentryV, a, ha, hidA, htagA, hownerA, hfitsA⟩ := htended.tended v hv
    obtain ⟨hentryW, b, hb, hidB, htagB, hownerB, hfitsB⟩ := htended.tended w hw
    have hlane := sameLane_of_tends hkey htagA hownerA htagB hownerB hentryV hentryW
    have hne : a ≠ b := fun heq => hapart (by rw [← hidA, ← hidB, heq])
    have hended : a.status.isTerminal = true ∨ b.status.isTerminal = true :=
      hlaned.alone_of_mem ha hb hne hlane (Or.inl hfitsA.ne_new) (Or.inl hfitsB.ne_new)
    rcases hended with hendedA | hendedB
    · exact Or.inl (hasFailed_of_isTerminal hrunningV ha hidA hfitsA hendedA)
    · exact Or.inr (hasFailed_of_isTerminal hrunningW hb hidB hfitsB hendedB)
  refine ⟨htended.apart.imp_of_mem fun hv hw hapart => hfailed hv hw hapart, ?_⟩
  intro hnever
  have hinnocent : ∀ {w : Worker}, w ∈ s.dispatcher.workers → ¬ s.HasFailed w := by
    rintro w hw ⟨hfatal, -⟩
    obtain ⟨⟨entry, hfind, hhandler⟩, -⟩ := htended.tended w hw
    rw [hregistry] at hfind
    rw [hhandler] at hfatal
    exact hnever w.event.tag entry w.event hfind hfatal
  refine htended.apart.imp_of_mem fun {v w} hv hw hapart hkey hrunning => ?_
  rcases hfailed hv hw hapart hkey hrunning.1 hrunning.2 with hfail | hfail
  · exact hinnocent hv hfail
  · exact hinnocent hw hfail

end Overlap

/-- A handler that sleeps for a minute. -/
def sleepingHandler : Handler := .ofScripts [⟨[.act (.sleep 60000)], .outcome .done⟩]

/-- A handler that logs a fatal failure and sleeps on. -/
def fatalHandler : Handler :=
  .ofScripts [⟨[.act (.log .fatal "broken"), .act (.sleep 60000)], .outcome .done⟩]

/-- Two tags that name one resource; the handler of the first one is given. -/
def laneOf (first : Handler) : Registry :=
  ⟨[("a:r", ⟨.team, first⟩), ("b:r", ⟨.team, sleepingHandler⟩)]⟩

def laneStart (first : Handler) : Service :=
  .ofDispatcher
    (.initial (laneOf first) ⟨1000, ⟨.ofSeconds 180, 5⟩, none⟩ .unhindered .always .epoch)

/-- Two events of one key are registered, and the worker of the first one takes some
steps; a second later another cycle runs. -/
def laneMoves (steps : Nat) : List Move :=
  [.register "a:r" "o" (.ofSeconds 300) (.ok .null),
    .register "b:r" "o" (.ofSeconds 300) (.ok .null),
    .start, .loop, .loop, .loop, .loop, .loop, .loop] ++
  List.replicate steps (.work 0) ++ [.elapse 1000, .loop, .loop, .loop]

/-- The other cycle claims the second event, and its handler is called. -/
def fatalMoves : List Move :=
  laneMoves 8 ++ [.loop, .work 1, .work 1, .work 1, .work 1, .work 1]

theorem not_logsFatal_sleepingHandler (e : Event) : ¬ sleepingHandler.LogsFatal e := by
  rintro ⟨earlier, message, hmem⟩
  cases earlier <;> simp [sleepingHandler, Handler.ofScripts, Script.play, Script.playSteps] at hmem

theorem not_logsFatal_of_laneOf {tag : Tag} {entry : Entry}
    (h : (laneOf sleepingHandler).find? tag = some entry) (e : Event) :
    ¬ entry.handler.LogsFatal e := by
  have hhandler : entry.handler = sleepingHandler := by
    simp only [Registry.find?, laneOf, List.lookup] at h
    split at h
    · cases h
      rfl
    · split at h
      · cases h
        rfl
      · cases h
  rw [hhandler]
  exact not_logsFatal_sleepingHandler e

theorem overlap_only_after_fatal_of_laneStart :
    (∃ s, Reaches (isTimely false) (laneStart fatalHandler) s ∧
      s.dispatcher.workers.map Worker.isHandling = [true, true] ∧
      s.dispatcher.workers.Pairwise fun v w =>
        v.event.key = w.event.key → v.isHandling = true → w.isHandling = true →
          s.HasFailed v ∨ s.HasFailed w) ∧
    ∃ s, Reaches (isTimely false) (laneStart sleepingHandler) s ∧
      s.dispatcher.workers.map Worker.isHandling = [true] ∧
      s.dispatcher.workers.Pairwise fun v w =>
        v.event.key = w.event.key → ¬ (v.isHandling = true ∧ w.isHandling = true) := by
  have hfatal : ((laneStart fatalHandler).follow? (isTimely false) fatalMoves).map
      (fun s => s.dispatcher.workers.map Worker.isHandling) = some [true, true] := by cbv
  have hsleeping : ((laneStart sleepingHandler).follow? (isTimely false) (laneMoves 5)).map
      (fun s => s.dispatcher.workers.map Worker.isHandling) = some [true] := by cbv
  obtain ⟨s, hs, hview⟩ := Option.map_eq_some_iff.1 hfatal
  obtain ⟨t, ht, hviewT⟩ := Option.map_eq_some_iff.1 hsleeping
  have hreaches : Reaches (isTimely false) (laneStart fatalHandler) s := Reaches.refl.follow? hs
  have hreachesT : Reaches (isTimely false) (laneStart sleepingHandler) t :=
    Reaches.refl.follow? ht
  refine ⟨⟨s, hreaches, hview, (overlap_only_after_fatal hreaches).1⟩, t, hreachesT, hviewT, ?_⟩
  exact (overlap_only_after_fatal hreachesT).2 fun _ _ e hfind => not_logsFatal_of_laneOf hfind e

/-- The second handler runs while the first one still does. -/
theorem overlap_of_fatalMoves :
    ∃ s, Reaches (isTimely false) (laneStart fatalHandler) s ∧
      ∃ v ∈ s.dispatcher.workers, ∃ w ∈ s.dispatcher.workers, v.serial ≠ w.serial ∧
        v.event.key = w.event.key ∧ v.isHandling = true ∧ w.isHandling = true := by
  have hrun : ((laneStart fatalHandler).follow? (isTimely false) fatalMoves).map (fun s =>
      s.dispatcher.workers.any fun v => s.dispatcher.workers.any fun w =>
        v.serial ≠ w.serial && v.event.key = w.event.key && v.isHandling && w.isHandling) =
      some true := by cbv
  obtain ⟨s, hs, hany⟩ := Option.map_eq_some_iff.1 hrun
  refine ⟨s, Reaches.refl.follow? hs, ?_⟩
  obtain ⟨v, hv, hanyV⟩ := List.any_eq_true.1 hany
  obtain ⟨w, hw, hboth⟩ := List.any_eq_true.1 hanyV
  simp only [Bool.and_eq_true, decide_eq_true_eq] at hboth
  exact ⟨v, hv, w, hw, hboth.1.1.1, hboth.1.1.2, hboth.1.2, hboth.2⟩

end Service
end EventDispatch
