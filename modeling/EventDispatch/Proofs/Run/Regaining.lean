import EventDispatch.Proofs.Run.Overlap

/-!
# Taking the lead again

**Input.** A run of one dispatcher on a clock that nobody sets, without resets by an
operator, in which the election gives and takes the lead any number of times.  Timers
fire when they are due: no time passes beyond the limit of a handler that runs, and none
while a worker performs its last actions (`Worker.maySpend`).

**Rule.** Who takes the lead sends every event that is being run back to wait.  These
events are meant to be those of an earlier leader, but workers survive the loss of the
lead, and the events of one's own workers are sent back as well.  A run is relieved if
the lead is never taken while the event of a worker is still being run.

**Invariant.** That of a run that keeps the lead, for the core as it would be with the
lead: apart from the loss of the lead itself, no move makes a difference between the two.

**Results.** `regained_lead_spares_workers`: in a relieved run, no event has two
workers, and until a worker ends its event is changed by nobody else.  In other runs
neither holds: `regained_of_restlessMoves` is a run in which the lead is lost and taken
again while a handler sleeps, and its event gets a second worker.
-/

namespace EventDispatch
namespace Core

/-- The core as it would be with the lead. -/
def asLeader (c : Core) : Core := { c with leading := true }

/-- The stored event of some worker is being run. -/
def isWorking (c : Core) : Bool :=
  c.workers.any fun w => c.store.events.any fun e =>
    e.id = w.event.id && e.status = .processing

variable {prompt : Bool} {c c' : Core} {m : Move}

theorem asLeader_of_leading (h : c.leading = true) : c.asLeader = c := by
  unfold asLeader
  rw [← h]

theorem Staffed.of_asLeader {fits : Worker → Event → Prop} (h : c.asLeader.Staffed fits) :
    c.Staffed fits :=
  ⟨h.serials, h.numbered, h.apart, h.fitted, h.once, h.free⟩

/-- The lead matters to nothing that a worker does. -/
theorem Progress.asLeader {w : Worker} {stage : Stage} {store : Store}
    (h : c.Progress w stage store) : c.asLeader.Progress w stage store := by
  cases h with
  | admitted hstage hpermit => exact .admitted hstage hpermit
  | opens hstage hacts => exact .opens hstage hacts
  | calls earlier hstage hdeadline => exact .calls earlier hstage hdeadline
  | neverCalls hstage hdeadline => exact .neverCalls hstage hdeadline
  | timesOut hstage hlimit => exact .timesOut hstage hlimit
  | waits hstage hlimit => exact .waits hstage hlimit
  | handles hstage hlimit hacts => exact .handles hstage hlimit hacts
  | returns hstage hlimit => exact .returns hstage hlimit
  | closes hstage hacts => exact .closes hstage hacts

/-- The lead matters to the loop only. -/
theorem Step.asLeader (h : c.Step m c') (hm : m ≠ .loop) : c.asLeader.Step m c'.asLeader := by
  cases h with
  | keep => exact .keep m
  | repaused m paused => exact .repaused m paused
  | elected election => exact .elected election
  | elapsed milliseconds => exact .elapsed milliseconds
  | clockSet now => exact .clockSet now
  | recorded tag owner deadline payload id hfresh =>
    exact .recorded tag owner deadline payload id hfresh
  | acted hacts => exact .acted hacts
  | staleReset => exact .staleReset
  | worked hw hprogress => exact .worked hw hprogress.asLeader
  | ended hw hstage => exact .ended hw hstage
  | leadLost | opened | passedOver | claimed => exact absurd rfl hm

theorem not_processing_of_idle (hidle : c.isWorking = false) {w : Worker}
    (hw : w ∈ c.workers) {e : Event} (he : e ∈ c.store.events) (hid : e.id = w.event.id) :
    e.status ≠ .processing := by
  intro hrun
  have hworking : c.isWorking = true :=
    List.any_eq_true.2 ⟨w, hw, List.any_eq_true.2 ⟨e, he, by simp [hid, hrun]⟩⟩
  rw [hidle] at hworking
  cases hworking

/-- Who takes the lead sends back whatever is being run. -/
theorem Step.sentBack_of_lead (h : c.Step .loop c') (hids : c.store.DistinctIds)
    (hbefore : c.leading = false) (hlater : c'.leading = true) {e : Event}
    (he : e ∈ c.store.events) (hrun : e.status = .processing) :
    ∃ e' ∈ c'.store.events, e'.id = e.id ∧ e'.status = .pending := by
  have hreset : c'.store = c.store.after (.resetProcessing c.now) := by
    cases h with
    | keep | repaused | passedOver | claimed => exact absurd (hbefore.symm.trans hlater) nofun
    | leadLost => cases hlater
    | opened => simp [Core.lead, hbefore]
  rw [hreset]
  refine ⟨{ e with status := .pending, updated := c.now }, ?_, rfl, rfl⟩
  exact (Store.mem_after hids).2 (Or.inl ⟨e, he, by simp [Store.Call.effectOn, hrun]⟩)

/-- The lead is taken while no event of a worker is being run. -/
theorem Tended.takeLead (h : c.asLeader.Tended prompt) (hids : c.store.DistinctIds)
    (hcandidates : c.candidates = []) (hidle : c.leading = false → c.isWorking = false) :
    c.lead.Tended prompt := by
  unfold Core.lead
  split
  · next hleading =>
    rwa [asLeader_of_leading hleading] at h
  · next hleading =>
    have hnone := hidle (by simpa using hleading)
    refine tended_of_staffed ?_
      (h.sound_after hids (fun _ _ _ heq => by cases heq) fun _ he => by cases he) nofun
    refine h.staffed.of_store (f := (Store.Call.resetProcessing c.now).effectOn c.store)
      (fun e he => (Store.mem_after hids).2 (Or.inl ⟨e, he, rfl⟩)) (fun e => by simp) ?_ ?_
    · intro w hw e he hid hfits
      have hkept : (Store.Call.resetProcessing c.now).effectOn c.store e = e := by
        simp [Store.Call.effectOn, not_processing_of_idle hnone hw he hid]
      rw [hkept]
      exact hfits
    · simp [asLeader, hcandidates]

/-- A step of the loop keeps one worker for each event, whether it has the lead or not, if
the lead is taken only while no event of a worker is being run. -/
theorem Tended.loop (h : c.asLeader.Tended prompt) (hids : c.store.DistinctIds)
    (hstep : c.Step .loop c')
    (hidle : c.leading = false → c'.leading = true → c.isWorking = false) :
    c'.asLeader.Tended prompt := by
  cases hstep with
  | keep => exact h
  | repaused =>
    exact ⟨h.sound, h.serials, h.numbered, h.apart, h.tended, h.once, h.free, h.leads⟩
  | leadLost => exact h
  | opened _ hcandidates hlist =>
    have hled := h.takeLead hids hcandidates fun hnot => hidle hnot c.leading_lead
    rw [asLeader_of_leading]
    · exact hled.opened hids hlist
    · exact c.leading_lead
  | passedOver hcandidates => exact h.passOver hcandidates
  | claimed hcandidates hentry hclaim => exact h.claim hcandidates hentry hclaim

/-- Every such move keeps one worker for each event. -/
theorem Tended.step_asLeader (h : c.asLeader.Tended false) (hids : c.store.DistinctIds)
    (hstep : c.Step m c') (hallowed : m ≠ .loop → c.allows false m = true)
    (hidle : c.leading = false → c'.leading = true → c.isWorking = false) :
    c'.asLeader.Tended false := by
  by_cases hloop : m = .loop
  · subst hloop
    exact h.loop hids hstep hidle
  · refine h.step hids (hstep.asLeader hloop) ?_
    have hsame : c.asLeader.allows false m = c.allows false m := by
      cases m with
      | loop => exact absurd rfl hloop
      | _ => rfl
    rw [hsame]
    exact hallowed hloop

end Core

namespace Service

/-- The next step of the loop takes the lead. -/
def takesLead (s : Service) : Bool :=
  s.loopStep.any fun s' => s'.dispatcher.leading && !s.dispatcher.leading

/-- Recorded events get fresh identifiers, the clock is steady, and the lead is never
taken while the event of a worker is being run. -/
def isRelieved (s : Service) (m : Move) : Bool :=
  s.givesFresh m &&
    match m with
    | .loop => !(s.takesLead && s.core.isWorking)
    | _ => s.core.allows false m

theorem allows_of_isRelieved {s : Service} {m : Move} (h : s.isRelieved m = true)
    (hm : m ≠ .loop) : s.core.allows false m = true := by
  cases m with
  | loop => exact absurd rfl hm
  | _ => exact (Bool.and_eq_true_iff.1 h).2

theorem idle_of_isRelieved {s s' : Service} {m : Move} (h : s.isRelieved m = true)
    (hstep : s.core.Step m s'.core) (hafter : s.after? m = some s')
    (hbefore : s.core.leading = false) (hlater : s'.core.leading = true) :
    s.core.isWorking = false := by
  obtain ⟨hloop, -⟩ := hstep.begins_of_lead hbefore hlater
  subst hloop
  have htakes : s.takesLead = true := by
    change s.loopStep = some s' at hafter
    change s.dispatcher.leading = false at hbefore
    change s'.dispatcher.leading = true at hlater
    simp [takesLead, hafter, hbefore, hlater]
  simpa [isRelieved, givesFresh, htakes] using h

section Regaining

variable {registry : Registry} {settings : Settings} {access : Access} {election : Election}
  {now : Instant} {s : Service}

theorem tended_of_relieved
    (h : Reaches isRelieved
      (.ofDispatcher (.initial registry settings access election now)) s) :
    s.core.Laned ∧ s.core.asLeader.Tended false := by
  refine h.induct (P := fun s => s.core.Laned ∧ s.core.asLeader.Tended false) ?_ ?_
  · have hstart : (ofDispatcher (.initial registry settings access election now)).core.Tended
        false := Core.tended_initial
    exact ⟨Core.laned_initial, hstart.sound, hstart.serials, hstart.numbered, hstart.apart,
      hstart.tended, hstart.once, hstart.free, nofun⟩
  · rintro s m s' ⟨hlaned, htended⟩ hm hafter
    have hstep := step_of_after? (Bool.and_eq_true_iff.1 hm).1 hafter
    exact ⟨hlaned.step hstep, htended.step_asLeader hlaned.ids hstep (allows_of_isRelieved hm)
      (idle_of_isRelieved hm hstep hafter)⟩

/-- Where the lead is never taken while the event of a worker is being run, no event has
two workers, and until a worker ends its event is changed by nobody else.  Whoever takes
the lead sends back whatever is being run, though a worker be at it. -/
theorem regained_lead_spares_workers
    (h : Reaches isRelieved
      (.ofDispatcher (.initial registry settings access election now)) s) :
    (s.dispatcher.workers.Pairwise fun v w => v.event.id ≠ w.event.id) ∧
    (∀ m s', s.isRelieved m = true → s.after? m = some s' →
      ∀ w ∈ s.dispatcher.workers, m ≠ .work w.serial →
        ∀ e ∈ s.dispatcher.store.events, e.id = w.event.id →
          e ∈ s'.dispatcher.store.events) ∧
    ∀ s', s.takesLead = true → s.after? .loop = some s' →
      ∀ e ∈ s.dispatcher.store.events, e.status = .processing →
        ∃ e' ∈ s'.dispatcher.store.events, e'.id = e.id ∧ e'.status = .pending := by
  obtain ⟨hlaned, htended⟩ := tended_of_relieved h
  refine ⟨htended.apart, fun m s' hm hafter w hw hother e he hid => ?_,
    fun s' htakes hafter e he hrun => ?_⟩
  · have hstep := step_of_after? (Bool.and_eq_true_iff.1 hm).1 hafter
    have hidle := fun hbefore hlater => Core.not_processing_of_idle
      (idle_of_isRelieved hm hstep hafter hbefore hlater) hw he hid
    refine htended.staffed.of_asLeader.leaves_event hlaned.ids hstep hw hother ?_ he hid
      ?_ hidle
    · rintro p e action rfl
      cases allows_of_isRelieved hm nofun
    · rintro rfl
      cases allows_of_isRelieved hm nofun
  · change s.loopStep = some s' at hafter
    simp only [takesLead, hafter, Option.any_some, Bool.and_eq_true, Bool.not_eq_true'] at htakes
    exact (step_of_loopStep hafter).sentBack_of_lead hlaned.ids htakes.2 htakes.1 he hrun

end Regaining

/-- A handler that logs an error, so that its event waits for a retry, and sleeps on. -/
def erringHandler : Handler :=
  .ofScripts [⟨[.act (.log .error "broken"), .act (.sleep 60000)], .outcome .done⟩]

/-- An event is registered, and its worker takes some steps.  Then one cycle sees that the
lead is lost, and the next one takes it again. -/
def restlessMoves (steps : Nat) : List Move :=
  [.register "a:r" "o" (.ofSeconds 300) (.ok .null),
    .start, .loop, .loop, .loop, .loop, .loop] ++
  List.replicate steps (.work 0) ++
  [.elect (.flag false none), .elapse 1000, .loop, .loop, .loop,
    .elect (.flag true none), .elapse 1000, .loop, .loop, .loop]

/-- The lead is lost and taken again while a handler sleeps whose event waits. -/
theorem regained_lead_spares_workers_of_restlessMoves :
    ∃ s, Reaches isRelieved (laneStart erringHandler) s ∧
      s.dispatcher.leading = true ∧ s.dispatcher.workers.map Worker.isHandling = [true] ∧
      (s.dispatcher.workers.Pairwise fun v w => v.event.id ≠ w.event.id) ∧
      (∀ m s', s.isRelieved m = true → s.after? m = some s' →
        ∀ w ∈ s.dispatcher.workers, m ≠ .work w.serial →
          ∀ e ∈ s.dispatcher.store.events, e.id = w.event.id →
            e ∈ s'.dispatcher.store.events) ∧
      ∀ s', s.takesLead = true → s.after? .loop = some s' →
        ∀ e ∈ s.dispatcher.store.events, e.status = .processing →
          ∃ e' ∈ s'.dispatcher.store.events, e'.id = e.id ∧ e'.status = .pending := by
  have hrun : ((laneStart erringHandler).follow? isRelieved (restlessMoves 8)).map (fun s =>
      (s.dispatcher.leading, s.dispatcher.workers.map Worker.isHandling)) =
        some (true, [true]) := by cbv
  obtain ⟨s, hs, hview⟩ := Option.map_eq_some_iff.1 hrun
  obtain ⟨hleading, hhandling⟩ := Prod.mk.inj hview
  have hreaches : Reaches isRelieved (laneStart erringHandler) s := Reaches.refl.follow? hs
  exact ⟨s, hreaches, hleading, hhandling, regained_lead_spares_workers hreaches⟩

/-- The moves of a run in which the lead may be taken at any time. -/
def isRestless (s : Service) (m : Move) : Bool :=
  match m with
  | .loop => true
  | _ => s.isRelieved m

/-- Another cycle, and the worker of the second claim calls its handler. -/
def secondMoves : List Move :=
  [.elapse 1000, .loop, .loop, .loop, .loop, .work 1, .work 1, .work 1, .work 1, .work 1]

/-- The first handler wakes up and is done. -/
def wakingMoves : List Move := [.elapse 57000, .work 0, .work 0, .work 0, .work 0]

/-- The lead is lost and taken again while a handler sleeps whose event is being run.  The
event is claimed a second time while the first worker lives, and completes by the hand of
the first worker while the second handler runs. -/
theorem regained_of_restlessMoves :
    ∃ s, Reaches isRestless (laneStart sleepingHandler) s ∧
      (∃ v ∈ s.dispatcher.workers, ∃ w ∈ s.dispatcher.workers, v.serial ≠ w.serial ∧
        v.event.id = w.event.id ∧ v.isHandling = true ∧ w.isHandling = true) ∧
      ∃ s', Reaches isRestless s s' ∧
        s'.dispatcher.workers.map (fun w => (w.serial, w.isHandling)) = [(1, true)] ∧
        s'.dispatcher.store.events.map Event.status = [.completed] := by
  have hrun : ((laneStart sleepingHandler).follow? isRestless
      (restlessMoves 5 ++ secondMoves)).map (fun s =>
        (s.dispatcher.workers.any fun v => s.dispatcher.workers.any fun w =>
            v.serial ≠ w.serial && v.event.id = w.event.id && v.isHandling && w.isHandling,
          (s.follow? isRestless wakingMoves).map fun s' =>
            (s'.dispatcher.workers.map fun w => (w.serial, w.isHandling),
              s'.dispatcher.store.events.map Event.status))) =
      some (true, some ([(1, true)], [.completed])) := by cbv
  obtain ⟨s, hs, hview⟩ := Option.map_eq_some_iff.1 hrun
  obtain ⟨htwice, hlater⟩ := Prod.mk.inj hview
  obtain ⟨s', hs', hend⟩ := Option.map_eq_some_iff.1 hlater
  obtain ⟨hworkers, hstatus⟩ := Prod.mk.inj hend
  refine ⟨s, Reaches.refl.follow? hs, ?_, s', Reaches.refl.follow? hs', hworkers, hstatus⟩
  obtain ⟨v, hv, hsecond⟩ := List.any_eq_true.1 htwice
  obtain ⟨w, hw, hboth⟩ := List.any_eq_true.1 hsecond
  simp only [Bool.and_eq_true, decide_eq_true_eq] at hboth
  exact ⟨v, hv, w, hw, hboth.1.1.1, hboth.1.1.2, hboth.1.2, hboth.2⟩

end Service
end EventDispatch
