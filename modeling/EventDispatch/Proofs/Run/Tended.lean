import EventDispatch.Proofs.Run.Lanes
import EventDispatch.Proofs.Run.Staffed

/-!
# One worker for each event

**Input.** A run of one dispatcher that keeps the lead, on a clock that nobody sets.
Registered deadlines cover the timer.  Time passes no further than the limit of any
handler, and not while a worker has its last actions left.  In a prompt run it does
not pass while a worker waits for its handler to be called either; only there an
operator may send expired events back.

**Invariant.** No two workers run one event, the stored event of each worker fits
how far the worker is, and the events that a cycle has yet to go through have no
worker (`Core.Tended`).

**Results.** Every such move keeps the invariant (`Tended.step`), so it holds in
every such run (`tended_of_reaches`).
-/

namespace EventDispatch
namespace Core

/-- A worker runs an event with the handler of its tag, and the stored event fits the
stage of the worker. -/
def Tends (c : Core) (prompt : Bool) (w : Worker) : Prop :=
  (∃ entry, c.registry.find? w.event.tag = some entry ∧ w.handler = entry.handler) ∧
    ∃ e ∈ c.store.events, e.id = w.event.id ∧ e.tag = w.event.tag ∧
      e.owner = w.event.owner ∧ w.Fits prompt c.now c.uptime e

/-- No two workers run one event, and each tends its own. -/
structure Tended (prompt : Bool) (c : Core) : Prop where
  sound : ∀ e ∈ c.store.events, e.IsSound c.settings.policy.grace
  serials : c.workers.Pairwise fun v w => v.serial ≠ w.serial
  numbered : ∀ w ∈ c.workers, w.serial < c.started
  apart : c.workers.Pairwise fun v w => v.event.id ≠ w.event.id
  tended : ∀ w ∈ c.workers, c.Tends prompt w
  once : c.candidates.Pairwise fun x y => x.id ≠ y.id
  free : ∀ x ∈ c.candidates, x ∈ c.store.events ∧ x.status ≠ .processing ∧
    ∀ w ∈ c.workers, w.event.id ≠ x.id
  leads : c.leading = false → c.workers = [] ∧ c.candidates = []

/-- The moves of a run that keeps the lead on a steady clock. -/
def allows (prompt : Bool) (c : Core) : Move → Bool
  -- Whoever has the lead is not told to give it up.
  | .loop =>
    match c.election.answer with
    | .ok leads => leads || !c.leading
    | .error _ => true
  -- No retry comes due while the handler that asked for it may still run.
  | .register _ _ deadline _ => coversTimer c.settings.policy.grace deadline
  -- Handlers are cut off at their limits, and the last actions of a worker take no time.
  | .elapse milliseconds => c.workers.all fun w => w.maySpend prompt c.uptime milliseconds
  | .resetStale => prompt
  -- Both clocks go together, and only workers use the loggers of their events.
  | .setClock _ => false
  | .act .. => false
  | _ => true

theorem tended_initial {prompt : Bool} {registry : Registry} {settings : Settings}
    {access : Access} {election : Election} {now : Instant} :
    (Service.ofDispatcher (.initial registry settings access election now)).core.Tended
      prompt where
  sound e he := by cases he
  serials := List.Pairwise.nil
  numbered w hw := by cases hw
  apart := List.Pairwise.nil
  tended w hw := by cases hw
  once := List.Pairwise.nil
  free x hx := by cases hx
  leads _ := ⟨rfl, rfl⟩

/-- A worker runs an event with the handler of its tag, and the stored event fits the
stage of the worker: what `Tends` says of the event that it finds. -/
def Attends (c : Core) (prompt : Bool) (w : Worker) (e : Event) : Prop :=
  (∃ entry, c.registry.find? w.event.tag = some entry ∧ w.handler = entry.handler) ∧
    e.tag = w.event.tag ∧ e.owner = w.event.owner ∧ w.Fits prompt c.now c.uptime e

variable {prompt : Bool} {c c' : Core}

theorem Tended.staffed (h : c.Tended prompt) : c.Staffed (c.Attends prompt) where
  serials := h.serials
  numbered := h.numbered
  apart := h.apart
  fitted w hw := by
    obtain ⟨hregistered, e, he, hid, htag, howner, hfits⟩ := h.tended w hw
    exact ⟨e, he, hid, hregistered, htag, howner, hfits⟩
  once := h.once
  free := h.free

theorem tended_of_staffed (h : c.Staffed (c.Attends prompt))
    (hsound : ∀ e ∈ c.store.events, e.IsSound c.settings.policy.grace)
    (hleads : c.leading = false → c.workers = [] ∧ c.candidates = []) : c.Tended prompt where
  sound := hsound
  serials := h.serials
  numbered := h.numbered
  apart := h.apart
  tended w hw := by
    obtain ⟨e, he, hid, hregistered, htag, howner, hfits⟩ := h.fitted w hw
    exact ⟨hregistered, e, he, hid, htag, howner, hfits⟩
  once := h.once
  free := h.free
  leads := hleads

/-- A call that is no retry keeps every event sound that was there. -/
theorem Tended.sound_after (h : c.Tended prompt) (hids : c.store.DistinctIds)
    {call : Store.Call} (hretry : ∀ clock id extension, call ≠ .retry clock id extension)
    (hrecorded : ∀ e ∈ call.recorded, e.IsSound c.settings.policy.grace) :
    ∀ e ∈ (c.store.after call).events, e.IsSound c.settings.policy.grace := by
  intro e he
  rcases (Store.mem_after hids).1 he with ⟨x, hx, rfl⟩ | hnew
  · exact (h.sound x hx).effectOn c.store fun _ _ _ heq => absurd heq (hretry _ _ _)
  · exact hrecorded e hnew

/-- A recorded event is sound if its deadline covers the timer. -/
theorem isSound_of_mem_recorded {grace : Duration} {id : Uuid} {now : Instant}
    {request : NewEvent} (hcovers : coversTimer grace request.deadline = true) {e : Event}
    (he : e ∈ (Store.Call.insert id now request).recorded) : e.IsSound grace := by
  have hpositive := Store.Call.deadline_pos_of_mem_recorded he
  obtain ⟨id', now', request', heq, rfl, -⟩ := Store.Call.eq_insert_of_mem_recorded he
  cases heq
  exact ⟨hpositive, Int.le_refl 0, hcovers⟩

theorem Tended.record (h : c.Tended prompt) (hids : c.store.DistinctIds) {id : Uuid}
    {request : NewEvent}
    (hcovers : coversTimer c.settings.policy.grace request.deadline = true) :
    ({ c with store := c.store.after (.insert id c.now request) } : Core).Tended prompt :=
  tended_of_staffed (h.staffed.record hids _ fun _ _ => rfl)
    (h.sound_after hids (fun _ _ _ heq => by cases heq)
      fun _ he => isSound_of_mem_recorded hcovers he) h.leads

theorem Tended.resetStale (h : c.Tended true) (hids : c.store.DistinctIds) :
    ({ c with store := c.store.after (.resetStale c.now c.now) } : Core).Tended true := by
  refine tended_of_staffed ?_
    (h.sound_after hids (fun _ _ _ heq => by cases heq) fun _ he => by cases he) h.leads
  refine h.staffed.of_store (f := (Store.Call.resetStale c.now c.now).effectOn c.store)
    (fun e he => (Store.mem_after hids).2 (Or.inl ⟨e, he, rfl⟩)) (fun e => by simp) ?_ ?_
  · rintro w - e he - ⟨hregistered, htag, howner, hfits⟩
    refine ⟨hregistered, ?_, ?_, hfits.resetStale c.store (h.sound e he)⟩
    · rw [Store.tag_effectOn, htag]
    · rw [Store.owner_effectOn, howner]
  · exact fun x _ hidle => by simp [Store.Call.effectOn, hidle]

/-- Whoever takes the lead has no workers yet. -/
theorem Tended.lead (h : c.Tended prompt) (hids : c.store.DistinctIds) :
    c.lead.Tended prompt := by
  unfold Core.lead
  split
  · exact h
  · next hleading =>
    obtain ⟨hworkers, hcandidates⟩ := h.leads (by simpa using hleading)
    exact tended_of_staffed (.of_no_workers hworkers hcandidates)
      (h.sound_after hids (fun _ _ _ heq => by cases heq) fun _ he => by cases he) nofun

theorem distinctIds_lead (hids : c.store.DistinctIds) : c.lead.store.DistinctIds := by
  unfold Core.lead
  split
  · exact hids
  · exact hids.after rfl

/-- A cycle opens with what whoever has the lead lists. -/
theorem Tended.opened (h : c.lead.Tended prompt) (hids : c.store.DistinctIds)
    {candidates : List Event}
    (hlist : candidates = [] ∨
      candidates = c.lead.store.dispatchable (c.registry.filterFor c.paused) c.now) :
    ({ c.lead with candidates } : Core).Tended prompt := by
  rw [← c.now_lead] at hlist
  refine tended_of_staffed (h.staffed.list (distinctIds_lead hids) _ hlist ?_) h.sound
    fun hnot => ?_
  · rintro w - e - - ⟨-, -, -, hfits⟩
    exact ⟨hfits.ne_new, hfits.isOverdue_eq_false⟩
  · cases c.leading_lead.symm.trans hnot

/-- A candidate is passed over. -/
theorem Tended.passOver (h : c.Tended prompt) {x : Event} {rest : List Event}
    (hcandidates : c.candidates = x :: rest) :
    ({ c with candidates := rest } : Core).Tended prompt := by
  refine tended_of_staffed (h.staffed.passOver hcandidates) h.sound fun hnot => ?_
  have hnone := (h.leads hnot).2
  rw [hcandidates] at hnone
  cases hnone

/-- A claim starts a worker for an event that has none. -/
theorem Tended.claim (h : c.Tended prompt) {x : Event}
    {rest : List Event} {entry : Entry} {store : Store} (hcandidates : c.candidates = x :: rest)
    (hentry : c.registry.find? x.tag = some entry)
    (hclaim : c.store.claim? c.now x.id = some store) :
    ({ c with
      store
      workers := c.workers ++
        [.spawned c.started { x with status := .processing } entry.handler]
      started := c.started + 1
      candidates := rest } : Core).Tended prompt := by
  refine tended_of_staffed (h.staffed.claim hcandidates hclaim ?_) ?_ fun hnot => ?_
  · exact ⟨⟨entry, hentry, rfl⟩, rfl, rfl, rfl, rfl, fun _ => Int.le_refl _⟩
  · intro e he
    rw [Store.eq_revise_of_claim? hclaim] at he
    obtain ⟨y, hy, rfl⟩ := List.mem_map.1 he
    split
    · exact (h.sound y hy).congr rfl rfl
    · exact h.sound y hy
  · have hnone := (h.leads hnot).2
    rw [hcandidates] at hnone
    cases hnone

/-- A step of a worker touches neither the other workers nor the candidates. -/
theorem Tended.work (h : c.Tended prompt) (hids : c.store.DistinctIds) {w : Worker}
    {stage : Stage} {store : Store} (hw : w ∈ c.workers) (hprogress : c.Progress w stage store) :
    ({ c with store, workers := c.workers.map (staged w stage) } : Core).Tended prompt := by
  obtain ⟨f, hrevises, hstep⟩ := hprogress.revises hids prompt
  refine tended_of_staffed (h.staffed.work hw hrevises ?_ fun _ _ _ _ hold => hold) ?_
    fun hnot => ?_
  · rintro e he - ⟨hregistered, htag, howner, hfits⟩
    obtain ⟨-, htag', howner'⟩ := hrevises.same e
    exact ⟨hregistered, htag'.trans htag, howner'.trans howner,
      (hstep e (h.sound e he)).2 hfits⟩
  · intro e he
    rw [hrevises.events] at he
    obtain ⟨x, hx, rfl⟩ := List.mem_map.1 he
    exact (hstep x (h.sound x hx)).1
  · have hnone := (h.leads hnot).1
    rw [hnone] at hw
    cases hw

/-- Fewer workers are fewer to look after. -/
theorem Tended.drop (h : c.Tended prompt) (keep : Worker → Bool) :
    ({ c with workers := c.workers.filter keep } : Core).Tended prompt := by
  refine tended_of_staffed (h.staffed.drop keep) h.sound fun hnot => ?_
  obtain ⟨hworkers, hcandidates⟩ := h.leads hnot
  exact ⟨by simp [hworkers], hcandidates⟩

theorem Tended.elapse (h : c.Tended prompt) {milliseconds : Nat}
    (hspends : ∀ w ∈ c.workers, w.maySpend prompt c.uptime milliseconds = true) :
    ({ c with
      uptime := c.uptime + milliseconds
      now := c.now.shift (milliseconds * 1000000) } : Core).Tended prompt := by
  refine ⟨h.sound, h.serials, h.numbered, h.apart, fun w hw => ?_, h.once, h.free, h.leads⟩
  obtain ⟨hregistered, e, he, hid, htag, howner, hfits⟩ := h.tended w hw
  exact ⟨hregistered, e, he, hid, htag, howner, hfits.elapse (hspends w hw)⟩

/-- Every allowed move keeps one worker for each event. -/
theorem Tended.step {m : Move} (h : c.Tended prompt) (hids : c.store.DistinctIds)
    (hstep : c.Step m c') (hallowed : c.allows prompt m = true) : c'.Tended prompt := by
  cases hstep with
  | keep => exact h
  | repaused | elected =>
    exact ⟨h.sound, h.serials, h.numbered, h.apart, h.tended, h.once, h.free, h.leads⟩
  | elapsed => exact h.elapse (List.all_eq_true.1 hallowed)
  | clockSet => cases hallowed
  | acted => cases hallowed
  | recorded => exact h.record hids hallowed
  | staleReset =>
    have hprompt : prompt = true := hallowed
    subst hprompt
    exact h.resetStale hids
  | leadLost hanswer =>
    have hleading : c.leading = false := by simpa [allows, hanswer] using hallowed
    exact ⟨h.sound, h.serials, h.numbered, h.apart, h.tended, h.once, h.free,
      fun _ => h.leads hleading⟩
  | opened _ _ hlist => exact (h.lead hids).opened hids hlist
  | passedOver hcandidates => exact h.passOver hcandidates
  | claimed hcandidates hentry hclaim => exact h.claim hcandidates hentry hclaim
  | worked hw hprogress => exact h.work hids hw hprogress
  | ended => exact h.drop _

end Core

namespace Service

/-- Recorded events get fresh identifiers, and the run keeps the lead on a steady clock. -/
def isTimely (prompt : Bool) (s : Service) (m : Move) : Bool :=
  s.givesFresh m && s.core.allows prompt m

theorem tended_of_reaches {prompt : Bool} {registry : Registry} {settings : Settings}
    {access : Access} {election : Election} {now : Instant} {s : Service}
    (h : Reaches (isTimely prompt)
      (.ofDispatcher (.initial registry settings access election now)) s) :
    s.core.Laned ∧ s.core.Tended prompt ∧ s.core.registry = registry := by
  refine h.induct
    (P := fun s => s.core.Laned ∧ s.core.Tended prompt ∧ s.core.registry = registry) ?_ ?_
  · exact ⟨Core.laned_initial, Core.tended_initial, rfl⟩
  · rintro s m s' ⟨hlaned, htended, hregistry⟩ hm hafter
    obtain ⟨hfresh, hallowed⟩ := Bool.and_eq_true_iff.1 hm
    have hstep := step_of_after? hfresh hafter
    exact ⟨hlaned.step hstep, htended.step hlaned.ids hstep hallowed,
      hstep.registry_eq.trans hregistry⟩

end Service
end EventDispatch
