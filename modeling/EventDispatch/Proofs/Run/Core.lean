import EventDispatch.Proofs.Run.Moves
import EventDispatch.Proofs.Store.Calls

/-!
# What a move does

The journal, the requests that wait and the counts of a service matter to few of
its properties.  This module keeps the rest of a service, its core, and says once
what a move does to it.

**Algorithm.** `Core.Step` has one constructor for each thing that can happen: an
event is recorded, expired events are sent back, the lead is taken or lost, a
cycle lists its candidates, passes one over or claims it, a worker makes progress
or ends, and time passes.  `Core.Progress` does the same for the steps of a worker.

**Results.** Every move of a service is such a step of its core
(`Service.step_of_after?`), so that a property of cores kept by every `Core.Step`
holds of every run.
-/

namespace EventDispatch

/-- The part of a service that decides which events are run. -/
structure Core where
  registry : Registry
  settings : Settings
  store : Store
  now : Instant
  uptime : Nat
  election : Election
  leading : Bool
  workers : List Worker
  started : Nat
  candidates : List Event
  paused : List EventClass

def Dispatcher.core (d : Dispatcher) (candidates : List Event) (paused : List EventClass) :
    Core where
  registry := d.registry
  settings := d.settings
  store := d.store
  now := d.now
  uptime := d.uptime
  election := d.election
  leading := d.leading
  workers := d.workers
  started := d.started
  candidates := candidates
  paused := paused

def Service.core (s : Service) : Core := s.dispatcher.core s.candidates s.pauses.classes

/-- The call that an action makes; `row` identifies a row that it writes. -/
def Action.call? (p : Policy) (clock : Instant) (row : Uuid) (e : Event) :
    Action → Option Store.Call
  | .append level message => some (.append ⟨row, e.id, level, message, clock⟩)
  | .returnAfterError => some (.retry clock e.id p.grace)
  | .giveBack => some (.retry clock e.id p.grace)
  | .markFailed => some (.setStatus clock e.id .failed)
  | .markCompleted => some (.setStatus clock e.id .completed)
  | .narrate _ => none
  | .sleep _ => none
  | .pass _ => none

theorem Action.call?_cases {p : Policy} {clock : Instant} {row : Uuid} {e : Event}
    {action : Action} {call : Store.Call} (h : action.call? p clock row e = some call) :
    (∃ written, call = .append written) ∨ call = .retry clock e.id p.grace ∨
      call = .setStatus clock e.id .failed ∨ call = .setStatus clock e.id .completed := by
  cases action <;> cases h <;> simp

namespace Core

/-- The stores that an action for an event may lead to: its call may fail. -/
def Acts (c : Core) (p : Policy) (e : Event) (action : Action) (store : Store) : Prop :=
  store = c.store ∨
    ∃ row call, action.call? p c.now row e = some call ∧ store = c.store.after call

/-- A step of a worker: the stage after it, and the store. -/
inductive Progress (c : Core) (w : Worker) : Stage → Store → Prop
  | admitted :
      w.stage = .queued →
      c.settings.permits?.all (c.workers.countP Worker.holdsPermit < ·) = true →
      Progress c w (.opening (openingActions w.event)) c.store
  | opens {action : Action} {rest : List Action} {store : Store} :
      w.stage = .opening (action :: rest) →
      c.Acts c.settings.policy w.event action store →
      Progress c w (.opening rest) store
  | calls (earlier : Nat) :
      w.stage = .opening [] →
      w.event.deadline.nanos ≠ 0 →
      Progress c w
        (.handling ((w.handler.play earlier w.event).deeds.flatMap (Deed.actions w.event))
          (w.handler.play earlier w.event).ending .none
          (c.uptime + timeLimit w.event.deadline))
        c.store
  | neverCalls :
      w.stage = .opening [] →
      w.event.deadline.nanos = 0 →
      Progress c w (.closing (timeoutActions c.settings.policy w.event)) c.store
  | timesOut {todo : List Action} {ending : Ending} {pause : Pause} {limit : Nat} :
      w.stage = .handling todo ending pause limit →
      limit ≤ c.uptime →
      Progress c w (.closing (timeoutActions c.settings.policy w.event)) c.store
  | waits {todo : List Action} {ending : Ending} {pause pause' : Pause} {limit : Nat} :
      w.stage = .handling todo ending pause limit →
      c.uptime < limit →
      Progress c w (.handling todo ending pause' limit) c.store
  | handles {action : Action} {rest : List Action} {ending : Ending} {pause pause' : Pause}
      {limit : Nat} {store : Store} :
      w.stage = .handling (action :: rest) ending pause limit →
      c.uptime < limit →
      c.Acts c.settings.policy w.event action store →
      Progress c w (.handling rest ending pause' limit) store
  | returns {ending : Ending} {pause : Pause} {limit : Nat} :
      w.stage = .handling [] ending pause limit →
      c.uptime < limit →
      Progress c w (.closing (closingActions c.settings.policy w.event ending)) c.store
  | closes {action : Action} {rest : List Action} {store : Store} :
      w.stage = .closing (action :: rest) →
      c.Acts c.settings.policy w.event action store →
      Progress c w (.closing rest) store

/-- The core with the lead: whoever takes it sends what is being run back to wait. -/
def lead (c : Core) : Core :=
  if c.leading then c
  else { c with store := c.store.after (.resetProcessing c.now), leading := true }

@[simp] theorem registry_lead (c : Core) : c.lead.registry = c.registry := by
  unfold lead
  split <;> rfl

@[simp] theorem now_lead (c : Core) : c.lead.now = c.now := by
  unfold lead
  split <;> rfl

@[simp] theorem leading_lead (c : Core) : c.lead.leading = true := by
  unfold lead
  split
  · assumption
  · rfl

@[simp] theorem candidates_lead (c : Core) : c.lead.candidates = c.candidates := by
  unfold lead
  split <;> rfl

theorem lead_with_candidates (c : Core) (candidates : List Event) :
    ({ c with candidates } : Core).lead = { c.lead with candidates } := by
  unfold lead
  split <;> rfl

/-- What a move may do. -/
inductive Step (c : Core) : Move → Core → Prop
  | keep (m : Move) : Step c m c
  | repaused (m : Move) (paused : List EventClass) : Step c m { c with paused }
  | elected (election : Election) : Step c (.elect election) { c with election }
  | elapsed (milliseconds : Nat) :
      Step c (.elapse milliseconds)
        { c with
          uptime := c.uptime + milliseconds
          now := c.now.shift (milliseconds * 1000000) }
  | clockSet (now : Instant) : Step c (.setClock now) { c with now }
  | recorded (tag : Tag) (owner : String) (deadline : Duration) (payload : Json) (id : Uuid) :
      (Store.Call.insert id c.now ⟨tag, owner, payload, deadline⟩).isFresh c.store = true →
      Step c (.register tag owner deadline (.ok payload))
        { c with
          store := c.store.after (.insert id c.now ⟨tag, owner, payload, deadline⟩) }
  | acted {p : Policy} {e : Event} {action : Action} {store : Store} :
      c.Acts p e action store →
      Step c (.act p e action) { c with store }
  | staleReset :
      Step c .resetStale { c with store := c.store.after (.resetStale c.now c.now) }
  | leadLost :
      c.election.answer = .ok false →
      Step c .loop { c with leading := false }
  | opened {candidates : List Event} :
      c.election.answer = .ok true →
      c.candidates = [] →
      (candidates = [] ∨
        candidates =
          c.lead.store.dispatchable (c.registry.filterFor c.paused) c.now) →
      Step c .loop { c.lead with candidates }
  | passedOver {e : Event} {rest : List Event} :
      c.candidates = e :: rest →
      Step c .loop { c with candidates := rest }
  | claimed {e : Event} {rest : List Event} {entry : Entry} {store : Store} :
      c.candidates = e :: rest →
      c.registry.find? e.tag = some entry →
      c.store.claim? c.now e.id = some store →
      Step c .loop
        { c with
          store
          workers := c.workers ++
            [.spawned c.started { e with status := .processing } entry.handler]
          started := c.started + 1
          candidates := rest }
  | worked {w : Worker} {stage : Stage} {store : Store} :
      w ∈ c.workers →
      c.Progress w stage store →
      Step c (.work w.serial)
        { c with
          store
          workers := c.workers.map fun v => if v.serial = w.serial then { w with stage } else v }
  | ended {w : Worker} :
      w ∈ c.workers →
      w.stage = .closing [] →
      Step c (.work w.serial)
        { c with workers := c.workers.filter fun v => v.serial ≠ w.serial }

theorem Step.registry_eq {c c' : Core} {m : Move} (h : c.Step m c') :
    c'.registry = c.registry := by
  cases h with
  | opened => exact c.registry_lead
  | _ => rfl

theorem Step.settings_eq {c c' : Core} {m : Move} (h : c.Step m c') :
    c'.settings = c.settings := by
  cases h with
  | opened =>
    unfold lead
    split <;> rfl
  | _ => rfl

theorem Step.election_eq {c c' : Core} {m : Move} (h : c.Step m c')
    (hm : ∀ election, m ≠ .elect election) : c'.election = c.election := by
  cases h with
  | elected election => exact absurd rfl (hm election)
  | opened =>
    unfold lead
    split <;> rfl
  | _ => rfl

end Core

/-! ## Every move is a step -/

namespace Dispatcher

theorem acts_performUnder (d : Dispatcher) (candidates : List Event) (paused : List EventClass)
    (p : Policy) (e : Event) (action : Action) :
    (d.core candidates paused).Acts p e action (d.performUnder p e action).store := by
  unfold performUnder
  dsimp only
  cases action with
  | narrate trace => exact Or.inl rfl
  | append level message =>
    simp only [Action.perform]
    split
    · next h => exact Or.inr ⟨d.nextId, _, rfl, Access.store_of_appendLog h⟩
    · exact Or.inl rfl
  | returnAfterError =>
    simp only [Action.perform]
    split
    · next h => exact Or.inr ⟨d.nextId, _, rfl, Access.store_of_retry h⟩
    · exact Or.inl rfl
  | markFailed =>
    simp only [Action.perform]
    split
    · next h =>
      rcases Access.store_of_setStatus h with hsame | hcall
      · exact Or.inl hsame
      · exact Or.inr ⟨d.nextId, _, rfl, hcall⟩
    · exact Or.inl rfl
  | markCompleted =>
    simp only [Action.perform]
    split
    · next h =>
      rcases Access.store_of_setStatus h with hsame | hcall
      · exact Or.inl hsame
      · exact Or.inr ⟨d.nextId, _, rfl, hcall⟩
    · next h =>
      rcases Access.store_of_setStatus h with hsame | hcall
      · exact Or.inl hsame
      · exact Or.inr ⟨d.nextId, _, rfl, hcall⟩
    · exact Or.inl rfl
  | giveBack =>
    simp only [Action.perform]
    split
    · next h => exact Or.inr ⟨d.nextId, _, rfl, Access.store_of_retry h⟩
    · next h => exact Or.inr ⟨d.nextId, _, rfl, Access.store_of_retry h⟩
    · exact Or.inl rfl
  | sleep milliseconds => exact Or.inl rfl
  | pass gate => exact Or.inl rfl

/-- Who leads is decided by the answer of the election alone, and a lead that is
taken or kept is the lead of the core. -/
theorem core_checkLead {d d' : Dispatcher} {answer : Except DispatchError Bool}
    (h : d.checkLead = (answer, d')) (candidates : List Event) (paused : List EventClass) :
    match answer with
    | .error _ => d'.core candidates paused = d.core candidates paused
    | .ok true =>
      d.election.answer = .ok true ∧
        d'.core candidates paused = (d.core candidates paused).lead
    | .ok false =>
      d.election.answer = .ok false ∧
        d'.core candidates paused = { d.core candidates paused with leading := false } := by
  unfold checkLead at h
  split at h
  · cases h
    rfl
  · next helection =>
    split at h
    · next hleading =>
      cases h
      exact ⟨helection, by simp [Core.lead, core, hleading]⟩
    · next hleading =>
      split at h
      · cases h
        rfl
      · next count store hreset =>
        cases h
        refine ⟨helection, ?_⟩
        simp [Core.lead, core, tell, hleading, Access.store_of_resetProcessing hreset]
  · next helection =>
    split at h
    · cases h
      exact ⟨helection, rfl⟩
    · next hleading =>
      cases h
      refine ⟨helection, ?_⟩
      simp [core, hleading]

theorem step_openCycle_error {d d' : Dispatcher} {paused : List EventClass}
    {cause : DispatchError} (h : d.openCycle paused d.now = (.error cause, d')) :
    (d.core [] paused).Step .loop (d'.core [] paused) := by
  unfold openCycle at h
  split at h
  · next hlead =>
    cases h
    rw [core_checkLead hlead [] paused]
    exact .keep _
  · cases h
  · next hlead =>
    obtain ⟨helection, hcore⟩ := core_checkLead hlead [] paused
    split at h
    · cases h
      rw [hcore]
      have hnone : (d.core [] paused).lead = { (d.core [] paused).lead with candidates := [] } :=
        Core.lead_with_candidates (d.core [] paused) []
      rw [hnone]
      exact .opened helection rfl (Or.inl rfl)
    · cases h

theorem step_openCycle_ok {d d' : Dispatcher} {paused : List EventClass}
    {candidates : List Event} (h : d.openCycle paused d.now = (.ok candidates, d')) :
    (d.core [] paused).Step .loop (d'.core candidates paused) := by
  unfold openCycle at h
  split at h
  · cases h
  · next hlead =>
    cases h
    obtain ⟨helection, hcore⟩ := core_checkLead hlead [] paused
    rw [hcore]
    exact .leadLost helection
  · next hlead =>
    obtain ⟨helection, hcore⟩ := core_checkLead hlead candidates paused
    split at h
    · cases h
    · next hlist =>
      cases h
      have hlisted : (d.core candidates paused).lead =
          { (d.core [] paused).lead with candidates } :=
        Core.lead_with_candidates (d.core [] paused) candidates
      have hstore : d'.store = (d.core [] paused).lead.store := by
        rw [hlisted] at hcore
        exact congrArg Core.store hcore
      have hregistry : d'.registry = d.registry := by
        have := congrArg Core.registry hcore
        rwa [Core.registry_lead] at this
      rw [hcore, hlisted]
      refine .opened helection rfl (Or.inr ?_)
      rw [Access.events_of_listDispatchable hlist, hstore, hregistry]
      rfl

/-- An event is passed over, or it is claimed and a worker is started for it. -/
theorem startOne_cases (d : Dispatcher) (e : Event) :
    (∃ journal, d.startOne e = (false, { d with journal })) ∨
      ∃ entry store journal, d.registry.find? e.tag = some entry ∧
        d.store.claim? d.now e.id = some store ∧
        d.startOne e =
          (true, ({ d with store, journal } : Dispatcher).spawn
            { e with status := .processing } entry.handler) := by
  unfold startOne
  dsimp only
  split
  · exact Or.inl ⟨_, rfl⟩
  · next entry hentry =>
    split
    · exact Or.inl ⟨_, rfl⟩
    · next hclaim =>
      rw [Access.store_of_claim_false hclaim]
      exact Or.inl ⟨_, rfl⟩
    · next store hclaim =>
      exact Or.inr ⟨entry, store, _, hentry, Access.claim?_of_claim_true hclaim, rfl⟩

theorem step_startOne (d : Dispatcher) (e : Event) (rest : List Event)
    (paused : List EventClass) :
    (d.core (e :: rest) paused).Step .loop ((d.startOne e).2.core rest paused) := by
  rcases d.startOne_cases e with ⟨journal, hone⟩ | ⟨entry, store, journal, hentry, hclaim, hone⟩
  · rw [hone]
    exact .passedOver rfl
  · rw [hone]
    exact .claimed rfl hentry hclaim

/-- A step of a handler leaves everything but the store as it is. -/
theorem progress_of_handlingStep {d d' : Dispatcher} {w : Worker} {todo : List Action}
    {ending : Ending} {pause : Pause} {limit : Nat} {stage : Stage}
    (hstage : w.stage = .handling todo ending pause limit)
    (h : d.handlingStep w.event todo ending pause limit = some (d', stage))
    (candidates : List Event) (paused : List EventClass) :
    d'.core candidates paused = { d.core candidates paused with store := d'.store } ∧
      (d.core candidates paused).Progress w stage d'.store := by
  unfold handlingStep at h
  split at h
  · next hlimit =>
    cases h
    exact ⟨rfl, .timesOut hstage hlimit⟩
  · next hlimit =>
    have hintime : (d.core candidates paused).uptime < limit := Nat.lt_of_not_le hlimit
    split at h
    · split at h
      · cases h
        exact ⟨rfl, .waits hstage hintime⟩
      · cases h
    · split at h
      · cases h
        exact ⟨rfl, .waits hstage hintime⟩
      · cases h
    · cases h
      exact ⟨rfl, .returns hstage hintime⟩
    · cases h
      exact ⟨rfl, .handles hstage hintime (Or.inl rfl)⟩
    · cases h
      exact ⟨rfl, .handles hstage hintime (Or.inl rfl)⟩
    · cases h
      exact ⟨rfl, .handles hstage hintime (acts_performUnder d _ _ _ _ _)⟩

/-- A step of a worker that goes on leaves everything but the store as it is. -/
theorem progress_of_workerStep {d d' : Dispatcher} {w : Worker} {stage : Stage}
    (h : d.workerStep w = some (d', some stage))
    (candidates : List Event) (paused : List EventClass) :
    d'.core candidates paused = { d.core candidates paused with store := d'.store } ∧
      (d.core candidates paused).Progress w stage d'.store := by
  unfold workerStep at h
  split at h
  · next hstage =>
    split at h
    · next hpermit =>
      cases h
      exact ⟨rfl, .admitted hstage hpermit⟩
    · cases h
  · next hstage =>
    cases h
    unfold beginCall
    split
    · next hzero => exact ⟨rfl, .neverCalls hstage hzero⟩
    · next hnonzero => exact ⟨rfl, .calls _ hstage hnonzero⟩
  · next hstage =>
    cases h
    exact ⟨rfl, .opens hstage (acts_performUnder d _ _ _ _ _)⟩
  · next hstage =>
    obtain ⟨⟨d₁, stage₁⟩, hstep, heq⟩ := Option.map_eq_some_iff.1 h
    cases heq
    exact progress_of_handlingStep hstage hstep candidates paused
  · next hstage =>
    cases h
    exact ⟨rfl, .closes hstage (acts_performUnder d _ _ _ _ _)⟩
  · cases h

/-- A worker that ends leaves everything as it is. -/
theorem closing_of_workerStep {d d' : Dispatcher} {w : Worker}
    (h : d.workerStep w = some (d', none)) : d' = d ∧ w.stage = .closing [] := by
  unfold workerStep at h
  split at h
  · split at h <;> cases h
  · cases h
  · cases h
  · obtain ⟨⟨d₁, stage₁⟩, -, heq⟩ := Option.map_eq_some_iff.1 h
    cases heq
  · cases h
  · next hstage =>
    cases h
    exact ⟨rfl, hstage⟩

/-- The worker of the number ends, or it goes on and is put in its place. -/
theorem worker_of_workOn? {d d' : Dispatcher} {serial : Nat} (h : d.workOn? serial = some d') :
    ∃ w ∈ d.workers, w.serial = serial ∧
      (w.stage = .closing [] ∧ d' = d.dropWorker w.serial ∨
        ∃ d₁ stage, d.workerStep w = some (d₁, some stage) ∧
          d' = d₁.putWorker { w with stage }) := by
  unfold workOn? at h
  split at h
  · cases h
  · next w hfind =>
    have hmem : w ∈ d.workers := List.mem_of_find?_eq_some hfind
    have hserial : w.serial = serial := by simpa using List.find?_some hfind
    refine ⟨w, hmem, hserial, ?_⟩
    split at h
    · cases h
    · next d₁ hstep =>
      cases h
      obtain ⟨rfl, hstage⟩ := closing_of_workerStep hstep
      exact Or.inl ⟨hstage, rfl⟩
    · next d₁ stage hstep =>
      cases h
      exact Or.inr ⟨d₁, stage, hstep, rfl⟩

theorem core_putWorker {d d₁ : Dispatcher} {w : Worker} {stage : Stage}
    (h : d.workerStep w = some (d₁, some stage)) (candidates : List Event)
    (paused : List EventClass) :
    (d₁.putWorker { w with stage }).core candidates paused =
      { d.core candidates paused with
        store := d₁.store
        workers := d.workers.map fun v =>
          if v.serial = w.serial then { w with stage } else v } := by
  obtain ⟨hcore, -⟩ := progress_of_workerStep h candidates paused
  have hworkers : d₁.workers = d.workers := congrArg Core.workers hcore
  have hput : (d₁.putWorker { w with stage }).core candidates paused =
      { d₁.core candidates paused with
        workers := d₁.workers.map fun v =>
          if v.serial = w.serial then { w with stage } else v } := rfl
  rw [hput, hcore, hworkers]

theorem step_workOn {d d' : Dispatcher} {serial : Nat} (h : d.workOn? serial = some d')
    (candidates : List Event) (paused : List EventClass) :
    (d.core candidates paused).Step (.work serial) (d'.core candidates paused) := by
  obtain ⟨w, hmem, rfl, ⟨hstage, rfl⟩ | ⟨d₁, stage, hstep, rfl⟩⟩ := worker_of_workOn? h
  · exact .ended hmem hstage
  · rw [core_putWorker hstep candidates paused]
    exact .worked hmem (progress_of_workerStep hstep candidates paused).2

end Dispatcher

namespace Service

theorem step_wake {s s' : Service} (hphase : s.loop.phase = .waiting)
    (h : s.wake? = some s') : s'.core = s.core := by
  unfold wake? at h
  split at h
  · cases h
    simp [core, candidates, hphase, endLoop, tell, Dispatcher.tell, Dispatcher.core]
  · cases h
    rfl
  · split at h
    · cases h
      simp [core, candidates, hphase, enter]
    · split at h
      · cases h
        simp [core, candidates, hphase, tell, Dispatcher.tell, Dispatcher.core]
      · split at h
        · cases h
          simp [core, candidates, hphase]
        · cases h

/-- The loop begins a cycle, goes on with one, or does nothing that matters to the core. -/
theorem loopStep_cases {s s' : Service} (h : s.loopStep = some s') :
    s'.core = s.core ∨ s.loop.phase = .starting ∧ s' = s.beginCycle ∨
      ∃ e rest count count', s.loop.phase = .claiming (e :: rest) count ∧
        s' = { s with dispatcher := (s.dispatcher.startOne e).2 }.enter
          (.claiming rest count') := by
  unfold loopStep at h
  split at h
  · cases h
  · cases h
  · next hphase => exact Or.inl (step_wake hphase h)
  · next hphase =>
    left
    split at h
    · cases h
      simp [core, candidates, hphase, enter]
    · cases h
      simp [core, candidates, hphase, enter, tell, Dispatcher.tell, Dispatcher.core]
  · next hphase => exact Or.inr (Or.inl ⟨hphase, (Option.some.inj h).symm⟩)
  · next count hphase =>
    cases h
    left
    unfold finishCycle
    dsimp only
    split <;> simp [core, candidates, hphase, enter, tell, Dispatcher.tell, Dispatcher.core]
  · next e rest count hphase =>
    exact Or.inr (Or.inr ⟨e, rest, count, _, hphase, (Option.some.inj h).symm⟩)

theorem candidates_of_starting {s : Service} (h : s.loop.phase = .starting) :
    s.candidates = [] := by
  simp [candidates, h]

theorem candidates_of_claiming {s : Service} {events : List Event} {count : Nat}
    (h : s.loop.phase = .claiming events count) : s.candidates = events := by
  simp [candidates, h]

/-- A step of the loop that begins no cycle, and has no event to go through, leaves the
core as it is. -/
theorem core_of_loopStep {s s' : Service} (h : s.loopStep = some s')
    (hphase : s.loop.phase ≠ .starting) (hcandidates : s.candidates = []) :
    s'.core = s.core := by
  rcases loopStep_cases h with hsame | ⟨hstarting, -⟩ | ⟨e, rest, count, count', hclaiming, -⟩
  · exact hsame
  · exact absurd hstarting hphase
  · rw [candidates_of_claiming hclaiming] at hcandidates
    cases hcandidates

theorem step_of_loopStep {s s' : Service} (h : s.loopStep = some s') :
    s.core.Step .loop s'.core := by
  rcases loopStep_cases h with hsame | ⟨hphase, rfl⟩ | ⟨e, rest, count, count', hphase, rfl⟩
  · rw [hsame]
    exact .keep _
  · have hcore : s.core = s.dispatcher.core [] s.pauses.classes := by
      rw [core, candidates_of_starting hphase]
    rw [hcore]
    unfold beginCycle
    split
    · next hopen =>
      have hstep := Dispatcher.step_openCycle_error hopen
      exact hstep
    · next hopen => exact Dispatcher.step_openCycle_ok hopen
  · have hcore : s.core = s.dispatcher.core (e :: rest) s.pauses.classes := by
      rw [core, candidates_of_claiming hphase]
    rw [hcore]
    exact Dispatcher.step_startOne _ _ _ _

theorem core_trigger (s : Service) (hint : String) : (s.trigger hint).2.core = s.core := by
  unfold trigger
  split <;> rfl

theorem core_registerEvent (s : Service) (tag : Tag) (owner : String) (deadline : Duration)
    (payload : Except Json.EncodeError Json) :
    (s.registerEvent tag owner deadline payload).2.core = s.core ∨
      ∃ value, payload = .ok value ∧
        (s.registerEvent tag owner deadline payload).2.core =
          { s.core with
            store := s.core.store.after
              (.insert s.dispatcher.nextId s.core.now ⟨tag, owner, value, deadline⟩) } := by
  unfold registerEvent
  split
  · exact Or.inl rfl
  · next value =>
    dsimp only
    split
    · exact Or.inl rfl
    · next store hinsert =>
      refine Or.inr ⟨value, rfl, ?_⟩
      dsimp only
      rw [core_trigger, Access.store_of_insert hinsert]
      rfl

theorem step_registerEvent {s : Service} {tag : Tag} {owner : String} {deadline : Duration}
    {payload : Except Json.EncodeError Json}
    (hfresh : s.givesFresh (.register tag owner deadline payload) = true) :
    s.core.Step (.register tag owner deadline payload)
      (s.registerEvent tag owner deadline payload).2.core := by
  rcases s.core_registerEvent tag owner deadline payload with hsame | ⟨value, rfl, hrecorded⟩
  · rw [hsame]
    exact .keep _
  · rw [hrecorded]
    exact .recorded tag owner deadline value _ hfresh

theorem step_resetStale (s : Service) : s.core.Step .resetStale s.resetStale.2.core := by
  unfold resetStale
  dsimp only
  split
  · exact .keep _
  · next hreset =>
    dsimp only
    rw [core_trigger, Access.store_of_resetStale hreset]
    exact .staleReset

/-- Every move does to the core what it may do. -/
theorem step_of_after? {s s' : Service} {m : Move} (hfresh : s.givesFresh m = true)
    (h : s.after? m = some s') : s.core.Step m s'.core := by
  cases m with
  | loop => exact step_of_loopStep h
  | work serial =>
    obtain ⟨d, hwork, rfl⟩ := Option.map_eq_some_iff.1 h
    exact Dispatcher.step_workOn hwork _ _
  | register tag owner deadline payload =>
    cases h
    exact step_registerEvent hfresh
  | resetStale =>
    cases h
    exact step_resetStale s
  | act p e action =>
    cases h
    exact .acted (Dispatcher.acts_performUnder s.dispatcher _ _ p e action)
  | trigger hint =>
    cases h
    rw [core_trigger]
    exact .keep _
  | pause c =>
    cases h
    unfold pauseClass
    split <;> exact .repaused _ _
  | resume c =>
    cases h
    unfold resumeClass
    split <;> exact .repaused _ _
  | setPaused classes =>
    cases h
    exact .repaused _ _
  | elect election =>
    cases h
    exact .elected election
  | elapse milliseconds =>
    cases h
    exact .elapsed milliseconds
  | setClock now =>
    cases h
    exact .clockSet now
  | start =>
    cases h
    have hkeep : s.start.core = s.core := by
      unfold start
      split
      · next hphase =>
        dsimp only
        split <;>
          simp [core, candidates, hphase, endLoop, tell, Dispatcher.tell, Dispatcher.core]
      · rfl
    rw [hkeep]
    exact .keep _
  | hinder access | release gate permits | vanish place | shutdown stop | abandon =>
    cases h
    exact .keep _

end Service
end EventDispatch
