import EventDispatch.Proofs.Run.Retries
import EventDispatch.Proofs.Run.Staffed

/-!
# The budget of retries

**Input.** A move of one dispatcher whose store is within reach.  A cycle begins only
once the workers of the cycle before it have ended, and no event that is being run is
reset.

**Invariant.** The event of each worker and the calls for it fit how far the worker is,
and every other event rests (`Core.Budgeted`).

**Results.** Every such move keeps the budget (`budgeted_of_reaches`), whatever the
clock, the election and the handlers do.
-/

namespace EventDispatch

/-! ## A step of a worker, with the store within reach -/

namespace Dispatcher

variable {d d₁ : Dispatcher} {w : Worker} {stage : Stage}

/-- What an action is to do is done. -/
theorem store_performUnder (haccess : d.access = .unhindered) (p : Policy) (e : Event)
    (action : Action) :
    (d.performUnder p e action).store =
      ((action.call? p d.now d.nextId e).map d.store.after).getD d.store := by
  unfold performUnder
  dsimp only
  rw [haccess]
  cases action with
  | narrate | append | sleep | pass => rfl
  | returnAfterError =>
    simp only [Action.perform, Access.retry_unhindered]
    exact Access.answer_snd _ _
  | giveBack =>
    simp only [Action.perform, Access.retry_unhindered, Action.call?, Option.map_some,
      Option.getD_some, Store.after]
    cases d.store.retry? d.now e.id p.grace <;> rfl
  | markFailed =>
    simp only [Action.perform, Access.setStatus_unhindered d.store d.now e.id .failed rfl]
    exact Access.answer_snd _ _
  | markCompleted =>
    simp only [Action.perform,
      Access.setStatus_unhindered d.store d.now e.id .completed rfl, Action.call?,
      Option.map_some, Option.getD_some, Store.after]
    cases d.store.settle? d.now e.id .completed <;> rfl

/-- An action makes of the standing of its event what it is to. -/
theorem standing_performUnder (haccess : d.access = .unhindered) (hids : d.store.DistinctIds)
    (p : Policy) {target e e' : Event} {action : Action} (he : e ∈ d.store.events)
    (he' : e' ∈ (d.performUnder p target action).store.events) (hid : e.id = target.id)
    (hid' : e'.id = target.id) : e'.standing = action.stand e.standing := by
  rw [store_performUnder haccess] at he'
  cases action with
  | narrate | sleep | pass =>
    rw [hids.eq_of_id_eq he' he (hid'.trans hid.symm)]
    rfl
  | append level message =>
    rw [hids.eq_of_id_eq he' he (hid'.trans hid.symm)]
    rfl
  | returnAfterError | giveBack | markFailed | markCompleted =>
    simp only [Action.call?, Option.map_some, Option.getD_some] at he'
    rcases (Store.mem_after hids).1 he' with ⟨x, hx, rfl⟩ | hrecorded
    · rw [Store.id_effectOn] at hid'
      rw [hids.eq_of_id_eq hx he (hid'.trans hid.symm)]
      simp only [Store.Call.effectOn, hid, true_and]
      split <;> simp_all [Event.standing, Action.stand]
    · cases hrecorded

theorem closes_of_workerStep (haccess : d.access = .unhindered) (hids : d.store.DistinctIds)
    (h : d.workerStep w = some (d₁, some stage)) (candidates : List Event)
    (paused : List EventClass) : (d.core candidates paused).Closes w d₁.store := by
  intro action rest hstage e he e' he' hid hid'
  simp only [workerStep, hstage, Option.some.injEq, Prod.mk.injEq] at h
  obtain ⟨rfl, -⟩ := h
  exact standing_performUnder haccess hids _ he he' hid hid'

theorem lookup_filter_ne {α β : Type} [DecidableEq α] (l : List (α × β)) {a b : α} (h : b ≠ a) :
    (l.filter fun x => x.1 ≠ a).lookup b = l.lookup b := by
  induction l with
  | nil => rfl
  | cons head rest ih =>
    obtain ⟨c, v⟩ := head
    simp only [ne_eq, decide_not] at ih
    by_cases hc : c = a
    · subst hc
      have hbc : (b == c) = false := by simpa using h
      simp [List.lookup_cons, hbc, ih]
    · simp [hc, List.lookup_cons, ih]

theorem callsFor_countCall (d : Dispatcher) (id id' : Uuid) :
    (d.countCall id).callsFor id' = d.callsFor id' + if id' = id then 1 else 0 := by
  unfold countCall
  by_cases h : id' = id
  · subst h
    simp [callsFor]
  · have hne : (id' == id) = false := by simpa using h
    simp only [callsFor, List.lookup_cons, hne, if_neg h, Nat.add_zero, lookup_filter_ne _ h]

theorem calls_of_handlingStep {e : Event} {todo : List Action} {ending : Ending} {pause : Pause}
    {limit : Nat} (h : d.handlingStep e todo ending pause limit = some (d₁, stage)) :
    d₁.access = d.access ∧ d₁.calls = d.calls := by
  unfold handlingStep at h
  split at h
  · cases h
    exact ⟨rfl, rfl⟩
  · split at h
    · split at h
      · cases h
        exact ⟨rfl, rfl⟩
      · cases h
    · split at h
      · cases h
        exact ⟨rfl, rfl⟩
      · cases h
    all_goals
      cases h
      exact ⟨rfl, rfl⟩

/-- A step of a worker calls its handler, or no handler, and leaves the way to the store
as it is. -/
theorem calls_of_workerStep (h : d.workerStep w = some (d₁, some stage)) :
    d₁.access = d.access ∧
      ∀ id, d₁.callsFor id = d.callsFor id + if id = w.event.id then w.nextCalls else 0 := by
  unfold workerStep at h
  split at h
  · next hstage =>
    split at h
    · cases h
      exact ⟨rfl, fun id => by simp [Worker.nextCalls, hstage]⟩
    · cases h
  · next hstage =>
    cases h
    unfold beginCall
    split
    · next hzero => exact ⟨rfl, fun id => by simp [Worker.nextCalls, hstage, hzero]⟩
    · next hnonzero =>
      refine ⟨rfl, fun id => ?_⟩
      simp only [Worker.nextCalls, hstage, if_neg hnonzero]
      exact callsFor_countCall d w.event.id id
  · next hstage =>
    cases h
    exact ⟨rfl, fun id => by simp [Worker.nextCalls, hstage, perform, performUnder, callsFor]⟩
  · next hstage =>
    obtain ⟨⟨d₂, stage₂⟩, hstep, heq⟩ := Option.map_eq_some_iff.1 h
    cases heq
    obtain ⟨haccess, hcalls⟩ := calls_of_handlingStep hstep
    exact ⟨haccess, fun id => by simp [Worker.nextCalls, hstage, callsFor, hcalls]⟩
  · next hstage =>
    cases h
    exact ⟨rfl, fun id => by simp [Worker.nextCalls, hstage, perform, performUnder, callsFor]⟩
  · cases h

end Dispatcher

/-! ## Other steps -/

namespace Service

variable {s s' : Service}

theorem calls_wake? (h : s.wake? = some s') :
    s'.dispatcher.access = s.dispatcher.access ∧ s'.dispatcher.calls = s.dispatcher.calls ∧
      s'.dispatcher.lingering = s.dispatcher.lingering := by
  unfold wake? at h
  split at h
  · cases h
    exact ⟨rfl, rfl, rfl⟩
  · cases h
    exact ⟨rfl, rfl, rfl⟩
  · split at h
    · cases h
      exact ⟨rfl, rfl, rfl⟩
    · split at h
      · cases h
        exact ⟨rfl, rfl, rfl⟩
      · split at h
        · cases h
          exact ⟨rfl, rfl, rfl⟩
        · cases h

theorem calls_beginCycle (s : Service) :
    s.beginCycle.dispatcher.access = s.dispatcher.access ∧
      s.beginCycle.dispatcher.calls = s.dispatcher.calls ∧
      s.beginCycle.dispatcher.lingering = s.dispatcher.lingering := by
  have h := s.dispatcher.openCycle_frame s.pauses.classes s.dispatcher.now
  unfold beginCycle
  split <;> rename_i heq <;> rw [heq] at h
  · exact ⟨h.access, h.calls, h.lingering⟩
  · exact ⟨h.access, h.calls, h.lingering⟩

/-- The loop calls no handler, and tells none to stop. -/
theorem calls_loopStep (h : s.loopStep = some s') :
    s'.dispatcher.access = s.dispatcher.access ∧ s'.dispatcher.calls = s.dispatcher.calls ∧
      s'.dispatcher.lingering = s.dispatcher.lingering := by
  unfold loopStep at h
  split at h
  · cases h
  · cases h
  · exact calls_wake? h
  · split at h
    · cases h
      exact ⟨rfl, rfl, rfl⟩
    · cases h
      exact ⟨rfl, rfl, rfl⟩
  · cases h
    exact s.calls_beginCycle
  · next count _ =>
    cases h
    unfold finishCycle
    dsimp only
    split <;> exact ⟨rfl, rfl, rfl⟩
  · next e rest count _ =>
    cases h
    have hframe := s.dispatcher.startOne_frame e
    exact ⟨hframe.access, hframe.calls, hframe.lingering⟩

theorem calls_trigger (s : Service) (hint : String) :
    (s.trigger hint).2.dispatcher.access = s.dispatcher.access ∧
      (s.trigger hint).2.dispatcher.calls = s.dispatcher.calls ∧
      (s.trigger hint).2.dispatcher.lingering = s.dispatcher.lingering := by
  unfold trigger
  split <;> exact ⟨rfl, rfl, rfl⟩

/-- Only workers call handlers and tell them to stop. -/
theorem calls_of_after? {m : Move} (h : s.after? m = some s') (hm : ∀ serial, m ≠ .work serial)
    (haccess : ∀ access, m ≠ .hinder access) :
    s'.dispatcher.access = s.dispatcher.access ∧ s'.dispatcher.calls = s.dispatcher.calls ∧
      s'.dispatcher.lingering.Sublist s.dispatcher.lingering := by
  -- Whatever leaves the list as it is, leaves it with no more than it had.
  have hkept : ∀ {d d' : Dispatcher}, d'.access = d.access ∧ d'.calls = d.calls ∧
      d'.lingering = d.lingering → d'.access = d.access ∧ d'.calls = d.calls ∧
      d'.lingering.Sublist d.lingering :=
    fun ⟨haccess, hcalls, hsame⟩ => ⟨haccess, hcalls, hsame ▸ .refl _⟩
  cases m with
  | loop => exact hkept (calls_loopStep h)
  | work serial => exact absurd rfl (hm serial)
  | hinder access => exact absurd rfl (haccess access)
  | register tag owner deadline payload =>
    cases h
    unfold registerEvent
    split
    · exact ⟨rfl, rfl, .refl _⟩
    · dsimp only
      split
      · exact ⟨rfl, rfl, .refl _⟩
      · exact hkept (calls_trigger _ tag)
  | resetStale =>
    cases h
    unfold resetStale
    dsimp only
    split
    · exact ⟨rfl, rfl, .refl _⟩
    · exact hkept (calls_trigger _ "reset")
  | trigger hint =>
    cases h
    exact hkept (s.calls_trigger hint)
  | pause c =>
    cases h
    unfold pauseClass
    split <;> exact ⟨rfl, rfl, .refl _⟩
  | resume c =>
    cases h
    unfold resumeClass
    split <;> exact ⟨rfl, rfl, .refl _⟩
  | start =>
    cases h
    unfold start
    split
    · dsimp only
      split <;> exact ⟨rfl, rfl, .refl _⟩
    · exact ⟨rfl, rfl, .refl _⟩
  | vanish place =>
    cases h
    exact ⟨rfl, rfl, List.eraseIdx_sublist _ _⟩
  | act | setPaused | elect | elapse | setClock | release | shutdown | abandon =>
    cases h
    exact ⟨rfl, rfl, .refl _⟩

end Service

/-! ## The budget -/

namespace Core

/-- The event of each worker and the calls for it fit how far the worker is, and every
other event rests. -/
structure Budgeted (steady : Uuid → Bool) (calls : Uuid → Nat) (c : Core) : Prop where
  ids : c.store.DistinctIds
  staffed : c.Staffed fun w =>
    w.Keeps c.settings.policy.maxRetries (steady w.event.id) (calls w.event.id)
  idle : ∀ e ∈ c.store.events, (∀ w ∈ c.workers, w.event.id ≠ e.id) →
    e.standing.Rests c.settings.policy.maxRetries (steady e.id) (calls e.id)
  lasts : ∀ e ∈ c.store.events, steady e.id = true → e.Lasts c.settings.policy.grace
  uncalled : ∀ id, (∀ e ∈ c.store.events, e.id ≠ id) → calls id = 0

variable {steady : Uuid → Bool} {calls calls' : Uuid → Nat} {c c' : Core}

theorem budgeted_initial {registry : Registry} {settings : Settings} {access : Access}
    {election : Election} {now : Instant} :
    (Service.ofDispatcher (.initial registry settings access election now)).core.Budgeted steady
      fun _ => 0 where
  ids := List.Pairwise.nil
  staffed := .of_no_workers rfl rfl
  idle e he := by cases he
  lasts e he := by cases he
  uncalled _ _ := rfl

namespace Budgeted

/-- At most one retry and one call exceed the bound. -/
theorem le (h : c.Budgeted steady calls) {e : Event} (he : e ∈ c.store.events) :
    e.retries ≤ c.settings.policy.maxRetries + 1 ∧
      calls e.id ≤ c.settings.policy.maxRetries + 1 := by
  by_cases hworker : ∃ w ∈ c.workers, w.event.id = e.id
  · obtain ⟨w, hw, hid⟩ := hworker
    obtain ⟨x, hx, hxid, hkeeps⟩ := h.staffed.fitted w hw
    rw [h.ids.eq_of_id_eq hx he (hxid.trans hid), hid] at hkeeps
    exact hkeeps.le
  · exact (h.idle e he fun w hw hid => hworker ⟨w, hw, hid⟩).le

theorem calls_le (h : c.Budgeted steady calls) (hbound : 0 ≤ c.settings.policy.maxRetries)
    (id : Uuid) : calls id ≤ c.settings.policy.maxRetries + 1 := by
  by_cases hrecorded : ∃ e ∈ c.store.events, e.id = id
  · obtain ⟨e, he, rfl⟩ := hrecorded
    exact (h.le he).2
  · rw [h.uncalled id fun e he hid => hrecorded ⟨e, he, hid⟩]
    omega

/-- The clocks, the election, the lead and the paused classes do not matter. -/
theorem congr (h : c.Budgeted steady calls) (hsettings : c'.settings = c.settings)
    (hstore : c'.store = c.store) (hworkers : c'.workers = c.workers)
    (hstarted : c'.started = c.started) (hcandidates : c'.candidates = c.candidates) :
    c'.Budgeted steady calls := by
  obtain ⟨hids, hstaffed, hidle, hlasts, huncalled⟩ := h
  obtain ⟨hserials, hnumbered, hapart, hfitted, honce, hfree⟩ := hstaffed
  refine ⟨?_, ⟨?_, ?_, ?_, ?_, ?_, ?_⟩, ?_, ?_, ?_⟩ <;>
    simpa only [hsettings, hstore, hworkers, hstarted, hcandidates]

/-- A call that changes no event may record one. -/
theorem record (h : c.Budgeted steady calls) (call : Store.Call)
    (hfresh : call.isFresh c.store = true)
    (hkept : ∀ e ∈ c.store.events, call.effectOn c.store e = e)
    (hbound : 0 ≤ c.settings.policy.maxRetries)
    (hlasts : ∀ e ∈ call.recorded, steady e.id = true → e.Lasts c.settings.policy.grace) :
    ({ c with store := c.store.after call } : Core).Budgeted steady calls := by
  have hmem : ∀ e ∈ (c.store.after call).events, e ∈ c.store.events ∨ e ∈ call.recorded := by
    intro e he
    rcases (Store.mem_after h.ids).1 he with ⟨x, hx, rfl⟩ | hrecorded
    · rw [hkept x hx]
      exact Or.inl hx
    · exact Or.inr hrecorded
  refine ⟨h.ids.after hfresh, h.staffed.record h.ids call hkept, ?_, ?_, ?_⟩
  · intro e he hnone
    rcases hmem e he with hold | hrecorded
    · exact h.idle e hold hnone
    · have hcalls : calls e.id = 0 :=
        h.uncalled e.id fun x hx => Store.Call.id_ne_of_mem_recorded hfresh hrecorded hx
      rw [hcalls]
      obtain ⟨id, now, request, -, rfl, -⟩ := Store.Call.eq_insert_of_mem_recorded hrecorded
      exact ⟨hbound, Int.le_refl 0, fun _ => rfl⟩
  · intro e he hsteady
    rcases hmem e he with hold | hrecorded
    · exact h.lasts e hold hsteady
    · exact hlasts e hrecorded hsteady
  · intro id hnone
    refine h.uncalled id fun e he => hnone e ?_
    exact (Store.mem_after h.ids).2 (Or.inl ⟨e, he, hkept e he⟩)

theorem passOver (h : c.Budgeted steady calls) {x : Event} {rest : List Event}
    (hcandidates : c.candidates = x :: rest) :
    ({ c with candidates := rest } : Core).Budgeted steady calls :=
  ⟨h.ids, h.staffed.passOver hcandidates, h.idle, h.lasts, h.uncalled⟩

/-- A reset leaves everything as it is while no event is being run. -/
theorem reset (h : c.Budgeted steady calls) {call : Store.Call}
    (hcall : call = .resetProcessing c.now ∨ call = .resetStale c.now c.now)
    (hidle : ∀ e ∈ c.store.events, e.status ≠ .processing)
    (hbound : 0 ≤ c.settings.policy.maxRetries) :
    ({ c with store := c.store.after call } : Core).Budgeted steady calls := by
  rcases hcall with rfl | rfl
  · refine h.record _ rfl (fun e he => ?_) hbound fun e he => by cases he
    simp [Store.Call.effectOn, hidle e he]
  · refine h.record _ rfl (fun e he => ?_) hbound fun e he => by cases he
    simp [Store.Call.effectOn, hidle e he]

/-- A cycle begins while there are no workers, so no event is being run. -/
theorem lead (h : c.Budgeted steady calls) (hworkers : c.workers = [])
    (hbound : 0 ≤ c.settings.policy.maxRetries) : c.lead.Budgeted steady calls := by
  unfold Core.lead
  split
  · exact h
  · refine (h.reset (Or.inl rfl) (fun e he => ?_) hbound).congr rfl rfl rfl rfl rfl
    exact (h.idle e he (by simp [hworkers])).ne_processing

theorem list (h : c.Budgeted steady calls) (hworkers : c.workers = []) {candidates : List Event}
    (filter : DispatchFilter)
    (hlist : candidates = [] ∨ candidates = c.store.dispatchable filter c.now) :
    ({ c with candidates } : Core).Budgeted steady calls := by
  refine ⟨h.ids, h.staffed.list h.ids filter hlist ?_, h.idle, h.lasts, h.uncalled⟩
  simp [hworkers]

/-- What is claimed has a retry left for each call that it may still come to. -/
theorem claim (h : c.Budgeted steady calls) {x : Event} {rest : List Event} {entry : Entry}
    {store : Store} (hcandidates : c.candidates = x :: rest)
    (hclaim : c.store.claim? c.now x.id = some store) :
    ({ c with
      store
      workers := c.workers ++
        [.spawned c.started { x with status := .processing } entry.handler]
      started := c.started + 1
      candidates := rest } : Core).Budgeted steady calls := by
  obtain ⟨hmem, -, hfree⟩ := h.staffed.free x (hcandidates ▸ List.mem_cons_self)
  have hstore := Store.eq_revise_of_claim? hclaim
  have hrests := h.idle x hmem hfree
  have hready := Store.waits_of_claim? h.ids hmem hclaim
  obtain ⟨hbounded, hcounted, hexact⟩ := hrests.of_ready hready
  refine ⟨?_, h.staffed.claim hcandidates hclaim ⟨rfl, rfl, hbounded, hcounted, hexact⟩, ?_, ?_,
    ?_⟩
  · have hafter : store = c.store.after (.claim c.now x.id) := by simp [Store.after, hclaim]
    rw [hafter]
    exact h.ids.after rfl
  · intro e he hnone
    rw [hstore] at he
    obtain ⟨y, hy, rfl⟩ := List.mem_map.1 he
    split at hnone
    · next hid =>
      exact absurd hid.symm (hnone _ (List.mem_append_right _ List.mem_cons_self))
    · next hid =>
      rw [if_neg hid]
      exact h.idle y hy fun w hw => hnone w (List.mem_append_left _ hw)
  · intro e he hsteady
    rw [hstore] at he
    obtain ⟨y, hy, rfl⟩ := List.mem_map.1 he
    split at hsteady
    · next hid =>
      rw [if_pos hid]
      exact (h.lasts y hy hsteady).congr rfl
    · next hid =>
      rw [if_neg hid]
      exact h.lasts y hy hsteady
  · intro id hnone
    refine h.uncalled id fun y hy => ?_
    have hplace : (if y.id = x.id then
        { y with status := .processing, updated := c.now } else y) ∈ store.events := by
      rw [hstore]
      exact List.mem_map_of_mem hy
    have hid := hnone _ hplace
    split at hid
    · exact hid
    · exact hid

/-- A step of a worker may call its handler, and touches nothing else. -/
theorem work (h : c.Budgeted steady calls) {w : Worker} {stage : Stage} {store : Store}
    (hw : w ∈ c.workers) (hprogress : c.Progress w stage store) (hcloses : c.Closes w store)
    (hcalls : ∀ id, calls' id = calls id + if id = w.event.id then w.nextCalls else 0) :
    ({ c with store, workers := c.workers.map (staged w stage) } : Core).Budgeted steady
      calls' := by
  obtain ⟨f, hrevises, hstep⟩ :=
    hprogress.keeps h.ids hcloses (steady w.event.id) (calls w.event.id)
  have hother : ∀ id, id ≠ w.event.id → calls' id = calls id := by
    intro id hid
    rw [hcalls, if_neg hid, Nat.add_zero]
  refine ⟨hrevises.distinctIds h.ids, h.staffed.work hw hrevises ?_ ?_, ?_, ?_, ?_⟩
  · intro e he hid hkeeps
    have hkept := (hstep e he).2 hid (fun hsteady => h.lasts e he (hid ▸ hsteady)) hkeeps
    rw [hcalls, if_pos rfl]
    exact hkept
  · intro v _ hne e hkeeps
    rw [hother v.event.id hne]
    exact hkeeps
  · intro e' he' hnone
    rw [hrevises.events] at he'
    obtain ⟨e, he, rfl⟩ := List.mem_map.1 he'
    have hid : (f e).id = e.id := (hrevises.same e).1
    have hidle : ∀ v ∈ c.workers, v.event.id ≠ e.id := by
      intro v hv
      rw [← hid, ← (h.staffed.staged_same hv hw stage).2]
      exact hnone _ (List.mem_map_of_mem hv)
    rw [hid, hother e.id (Ne.symm (hidle w hw)), hrevises.other e (Ne.symm (hidle w hw))]
    exact h.idle e he hidle
  · intro e' he' hsteady
    rw [hrevises.events] at he'
    obtain ⟨e, he, rfl⟩ := List.mem_map.1 he'
    rw [(hrevises.same e).1] at hsteady
    exact (hstep e he).1 (h.lasts e he hsteady)
  · intro id hnone
    have hbefore : ∀ e ∈ c.store.events, e.id ≠ id := by
      intro e he
      rw [← (hrevises.same e).1]
      refine hnone (f e) ?_
      rw [hrevises.events]
      exact List.mem_map_of_mem he
    obtain ⟨x, hx, hxid, -⟩ := h.staffed.fitted w hw
    rw [hother id fun heq => hbefore x hx (hxid.trans heq.symm)]
    exact h.uncalled id hbefore

/-- The event of a worker that is done rests. -/
theorem drop (h : c.Budgeted steady calls) {w : Worker} (hw : w ∈ c.workers)
    (hstage : w.stage = .closing []) :
    ({ c with workers := c.workers.filter fun v => v.serial ≠ w.serial } : Core).Budgeted steady
      calls := by
  refine ⟨h.ids, h.staffed.drop _, fun e he hnone => ?_, h.lasts, h.uncalled⟩
  by_cases hid : e.id = w.event.id
  · obtain ⟨x, hx, hxid, hkeeps⟩ := h.staffed.fitted w hw
    rw [h.ids.eq_of_id_eq he hx (hid.trans hxid.symm), hxid]
    simpa [Worker.Keeps, hstage, standAfter] using hkeeps
  · refine h.idle e he fun v hv hvid => hnone v ?_ hvid
    refine List.mem_filter.2 ⟨hv, ?_⟩
    have hother : v.serial ≠ w.serial := by
      intro hserial
      rw [h.staffed.eq_of_serial hv hw hserial] at hvid
      exact hid hvid.symm
    simpa using hother

/-- A step of the loop keeps the budget, if cycles begin only while there are no workers. -/
theorem loop (h : c.Budgeted steady calls) (hstep : c.Step .loop c')
    (hbound : 0 ≤ c.settings.policy.maxRetries)
    (hbegins : c' = c ∨ c.candidates ≠ [] ∨ c.workers = []) : c'.Budgeted steady calls := by
  rcases hbegins with rfl | hbegins
  · exact h
  · cases hstep with
    | keep => exact h
    | repaused | leadLost => exact h.congr rfl rfl rfl rfl rfl
    | opened _ hnone hlist =>
      have hworkers : c.workers = [] := hbegins.resolve_left (absurd hnone)
      have hled := h.lead hworkers hbound
      rw [← c.now_lead] at hlist
      refine hled.list ?_ _ hlist
      unfold Core.lead
      split <;> exact hworkers
    | passedOver hcandidates => exact h.passOver hcandidates
    | claimed hcandidates _ hclaim => exact h.claim hcandidates hclaim

end Budgeted
end Core

namespace Service

/-- Recorded events get fresh identifiers, a cycle begins only once all workers have
ended, nothing that is being run is reset, the store is within reach, and only workers
use the loggers of their events.  A steady event has a deadline that lasts. -/
def isOrderly (steady : Uuid → Bool) (s : Service) (m : Move) : Bool :=
  s.givesFresh m &&
    match m with
    | .loop =>
      match s.loop.phase with
      | .starting => s.dispatcher.workers.isEmpty
      | _ => true
    | .register _ _ deadline _ =>
      !steady s.dispatcher.nextId || lasts s.dispatcher.settings.policy.grace deadline
    | .resetStale => s.dispatcher.store.events.all fun e => e.status ≠ .processing
    | .act .. => false
    | .hinder _ => false
    | _ => true

section Orderly

variable {steady : Uuid → Bool} {s s' : Service} {m : Move}

theorem begins_of_isOrderly (hm : s.isOrderly steady .loop = true) (h : s.loopStep = some s') :
    s'.core = s.core ∨ s.core.candidates ≠ [] ∨ s.core.workers = [] := by
  by_cases hcandidates : s.candidates = []
  · by_cases hphase : s.loop.phase = .starting
    · have hempty : s.dispatcher.workers.isEmpty = true := by
        simpa [isOrderly, givesFresh, hphase] using hm
      exact Or.inr (Or.inr (List.isEmpty_iff.1 hempty))
    · exact Or.inl (core_of_loopStep h hphase hcandidates)
  · exact Or.inr (Or.inl hcandidates)

theorem callsFor_congr {d d' : Dispatcher} (h : d'.calls = d.calls) :
    d'.callsFor = d.callsFor := by
  funext id
  simp [Dispatcher.callsFor, h]

/-- A step of a worker keeps the budget. -/
theorem budgeted_work {serial : Nat} (h : s.core.Budgeted steady s.dispatcher.callsFor)
    (haccess : s.dispatcher.access = .unhindered) (hafter : s.after? (.work serial) = some s') :
    s'.dispatcher.access = .unhindered ∧ s'.core.Budgeted steady s'.dispatcher.callsFor := by
  obtain ⟨d, hwork, rfl⟩ := Option.map_eq_some_iff.1 hafter
  obtain ⟨w, hw, rfl, ⟨hstage, rfl⟩ | ⟨d₁, stage, hstep, rfl⟩⟩ :=
    Dispatcher.worker_of_workOn? hwork
  · exact ⟨haccess, h.drop hw hstage⟩
  · obtain ⟨haccess', hcalls⟩ := Dispatcher.calls_of_workerStep hstep
    obtain ⟨-, hprogress⟩ :=
      Dispatcher.progress_of_workerStep hstep s.candidates s.pauses.classes
    refine ⟨haccess'.trans haccess, ?_⟩
    have hcore := Dispatcher.core_putWorker hstep s.candidates s.pauses.classes
    change ((d₁.putWorker { w with stage }).core s.candidates s.pauses.classes).Budgeted steady
      (d₁.putWorker { w with stage }).callsFor
    rw [hcore]
    exact h.work hw hprogress (Dispatcher.closes_of_workerStep haccess h.ids hstep _ _) hcalls

/-- Every such move keeps the budget. -/
theorem budgeted_after? (h : s.core.Budgeted steady s.dispatcher.callsFor)
    (haccess : s.dispatcher.access = .unhindered)
    (hbound : 0 ≤ s.core.settings.policy.maxRetries) (hm : s.isOrderly steady m = true)
    (hafter : s.after? m = some s') :
    s'.dispatcher.access = .unhindered ∧ s'.core.Budgeted steady s'.dispatcher.callsFor := by
  obtain ⟨hfresh, hallowed⟩ := Bool.and_eq_true_iff.1 hm
  by_cases hwork : ∃ serial, m = .work serial
  · obtain ⟨serial, rfl⟩ := hwork
    exact budgeted_work h haccess hafter
  · have hidle : ∀ serial, m ≠ .work serial := fun serial heq => hwork ⟨serial, heq⟩
    have hreach : ∀ access, m ≠ .hinder access := by
      rintro access rfl
      cases hallowed
    obtain ⟨haccess', hcalls, -⟩ := calls_of_after? hafter hidle hreach
    refine ⟨haccess'.trans haccess, ?_⟩
    rw [callsFor_congr hcalls]
    have hstep := step_of_after? hfresh hafter
    cases m with
    | loop => exact h.loop hstep hbound (begins_of_isOrderly hm hafter)
    | work serial => exact absurd rfl (hidle serial)
    | register tag owner deadline payload =>
      cases hafter
      rcases s.core_registerEvent tag owner deadline payload with hsame | ⟨value, -, hrecord⟩
      · rw [hsame]
        exact h
      · rw [hrecord]
        refine h.record _ hfresh (fun _ _ => rfl) hbound fun e he hsteady => ?_
        have hpositive := Store.Call.deadline_pos_of_mem_recorded he
        obtain ⟨id, now, request, hinsert, rfl, -⟩ := Store.Call.eq_insert_of_mem_recorded he
        cases hinsert
        have hnext : steady s.dispatcher.nextId = true := hsteady
        have hlast : lasts s.dispatcher.settings.policy.grace deadline = true := by
          simpa [hnext] using hallowed
        exact Event.lasts_of_positive hpositive hlast
    | resetStale =>
      have hidle : ∀ e ∈ s.core.store.events, e.status ≠ .processing := by
        intro e he
        simpa using List.all_eq_true.1 hallowed e he
      generalize s'.core = c' at hstep
      cases hstep with
      | keep => exact h
      | repaused => exact h.congr rfl rfl rfl rfl rfl
      | staleReset => exact h.reset (Or.inr rfl) hidle hbound
    | act => cases hallowed
    | hinder => cases hallowed
    | _ =>
      generalize s'.core = c' at hstep
      cases hstep <;> exact h.congr rfl rfl rfl rfl rfl

theorem budgeted_of_reaches {registry : Registry} {settings : Settings} {election : Election}
    {now : Instant} (hbound : 0 ≤ settings.policy.maxRetries)
    (h : Reaches (isOrderly steady)
      (.ofDispatcher (.initial registry settings .unhindered election now)) s) :
    s.dispatcher.access = .unhindered ∧ s.core.Budgeted steady s.dispatcher.callsFor ∧
      s.core.settings = settings := by
  refine h.induct (P := fun s => s.dispatcher.access = .unhindered ∧
    s.core.Budgeted steady s.dispatcher.callsFor ∧ s.core.settings = settings) ?_ ?_
  · exact ⟨rfl, Core.budgeted_initial, rfl⟩
  · rintro s m s' ⟨haccess, hbudgeted, rfl⟩ hm hafter
    obtain ⟨haccess', hbudgeted'⟩ := budgeted_after? hbudgeted haccess hbound hm hafter
    have hstep := step_of_after? (Bool.and_eq_true_iff.1 hm).1 hafter
    exact ⟨haccess', hbudgeted', hstep.settings_eq⟩

end Orderly
end Service
end EventDispatch
