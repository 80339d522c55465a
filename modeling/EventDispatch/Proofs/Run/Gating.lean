import EventDispatch.Proofs.Run.Lanes
import EventDispatch.Proofs.Run.Origins
import EventDispatch.Proofs.Run.Overlap

/-!
# Which events are ever run

**Input.** Any run of a service under any registry: events of all tags are recorded,
classes paused and resumed, cycles run, workers go on, expired events and those of an
earlier leader are sent back, the store fails and comes back.  Whoever uses a logger got
it from a handler, so its event has a registered tag.

**Invariant.** Every worker, and every row of the audit trail, belongs to a stored event
of a registered tag, and an event of any other tag is as it was recorded
(`Core.Gated`).  A candidate has the tag of its stored event, so that no other event is
ever claimed.

**Results.** `only_admitted_events_run`: the event of every worker has a registered tag;
the cycle that claimed it saw it as new, or as pending and overdue, and read paused
classes without the one of the tag.  An event of a tag that is not registered stays as
it was recorded, without a row.
-/

namespace EventDispatch

/-- The event that a call is about, if it is about one. -/
def Store.Call.target? : Store.Call → Option Uuid
  | .insert _ _ _ => none
  | .claim _ id => some id
  | .setStatus _ id _ => some id
  | .retry _ id _ => some id
  | .append row => some row.event
  | .resetProcessing _ => none
  | .resetStale _ _ => none

/-- A call about another event leaves an event that is not being run as it is. -/
theorem Store.effectOn_of_target?_ne {s : Store} {e : Event} {call : Store.Call}
    (hidle : e.status ≠ .processing) (hother : ∀ id, call.target? = some id → e.id ≠ id) :
    call.effectOn s e = e := by
  cases call with
  | insert | append => rfl
  | claim clock id | setStatus clock id status | retry clock id extension =>
    simp [Call.effectOn, hother id rfl]
  | resetProcessing | resetStale => simp [Call.effectOn, hidle]

namespace Core

/-- A stored event of this identifier has a registered tag. -/
def Serves (c : Core) (id : Uuid) : Prop :=
  ∃ e ∈ c.store.events, e.id = id ∧ c.registry.contains e.tag = true

/-- Only events of registered tags are run, and all others are as they were recorded. -/
structure Gated (c : Core) : Prop where
  ids : c.store.DistinctIds
  listed : ∀ x ∈ c.candidates, ∃ e ∈ c.store.events, e.id = x.id ∧ e.tag = x.tag
  working : ∀ w ∈ c.workers, c.Serves w.event.id
  rows : ∀ row ∈ c.store.trail, c.Serves row.event
  untouched : ∀ e ∈ c.store.events, c.registry.contains e.tag = false →
    e.status = .new ∧ e.retries = 0 ∧ e.updated = e.created

/-- The stores that a move may lead to: it makes at most one call, and only about an
event of a registered tag. -/
def Reserves (c : Core) (store : Store) : Prop :=
  store = c.store ∨
    ∃ call : Store.Call, store = c.store.after call ∧ call.isFresh c.store = true ∧
      ∀ id, call.target? = some id → c.Serves id

variable {c c' : Core} {m : Move}

theorem gated_initial {registry : Registry} {settings : Settings} {access : Access}
    {election : Election} {now : Instant} :
    (Service.ofDispatcher (.initial registry settings access election now)).core.Gated := by
  refine ⟨List.Pairwise.nil, ?_, ?_, ?_, ?_⟩
  all_goals
    intro x hx
    cases hx

theorem Acts.reserves {p : Policy} {e : Event} {action : Action} {store : Store}
    (h : c.Acts p e action store) (hserves : c.Serves e.id) : c.Reserves store := by
  rcases h with hsame | ⟨row, call, hcall, hstore⟩
  · exact Or.inl hsame
  · refine Or.inr ⟨call, hstore, ?_, fun id htarget => ?_⟩
    · rcases Action.call?_cases hcall with ⟨written, rfl⟩ | rfl | rfl | rfl <;> rfl
    · have hid : id = e.id := by
        cases action <;> cases hcall <;> cases htarget <;> rfl
      rw [hid]
      exact hserves

theorem Progress.reserves {w : Worker} {stage : Stage} {store : Store}
    (h : c.Progress w stage store) (hserves : c.Serves w.event.id) : c.Reserves store := by
  cases h with
  | opens _ hacts | handles _ _ hacts | closes _ hacts => exact hacts.reserves hserves
  | admitted | calls | neverCalls | timesOut | waits | returns => exact Or.inl rfl

theorem reserves_lead (c : Core) : c.Reserves c.lead.store := by
  unfold lead
  split
  · exact Or.inl rfl
  · exact Or.inr ⟨.resetProcessing c.now, rfl, rfl, nofun⟩

theorem Step.reserves (h : c.Step m c') (hgated : c.Gated)
    (hacts : ∀ p e action, m = .act p e action → c.Serves e.id) : c.Reserves c'.store := by
  cases h with
  | keep | repaused | elected | elapsed | clockSet | leadLost | passedOver | ended =>
    exact Or.inl rfl
  | recorded tag owner deadline payload id hfresh =>
    exact Or.inr ⟨.insert id c.now ⟨tag, owner, payload, deadline⟩, rfl, hfresh, nofun⟩
  | acted hactsOn => exact hactsOn.reserves (hacts _ _ _ rfl)
  | staleReset => exact Or.inr ⟨.resetStale c.now c.now, rfl, rfl, nofun⟩
  | opened => exact reserves_lead c
  | @claimed x _ entry _ hcandidates hentry hclaim =>
    refine Or.inr ⟨.claim c.now x.id, by simp [Store.after, hclaim], rfl, fun id htarget => ?_⟩
    cases htarget
    obtain ⟨e, he, hid, htag⟩ := hgated.listed x (hcandidates ▸ List.mem_cons_self)
    exact ⟨e, he, hid, by simp [htag, Registry.contains, hentry]⟩
  | worked hw hprogress => exact hprogress.reserves (hgated.working _ hw)

/-- A call about events of registered tags leaves an event of any other tag alone. -/
theorem Gated.effectOn_of_unregistered (h : c.Gated) {call : Store.Call}
    (hserves : ∀ id, call.target? = some id → c.Serves id) {e : Event}
    (he : e ∈ c.store.events) (hunknown : c.registry.contains e.tag = false) :
    call.effectOn c.store e = e := by
  refine Store.effectOn_of_target?_ne (by simp [(h.untouched e he hunknown).1]) ?_
  intro id htarget hid
  obtain ⟨x, hx, hxid, hknown⟩ := hserves id htarget
  rw [h.ids.eq_of_id_eq hx he (hxid.trans hid.symm), hunknown] at hknown
  cases hknown

/-- A stored event stays, with its identifier and its tag. -/
theorem Reserves.exists_mem {store : Store} (h : c.Reserves store) (hids : c.store.DistinctIds)
    {e : Event} (he : e ∈ c.store.events) :
    ∃ e' ∈ store.events, e'.id = e.id ∧ e'.tag = e.tag := by
  rcases h with rfl | ⟨call, rfl, -⟩
  · exact ⟨e, he, rfl, rfl⟩
  · exact ⟨call.effectOn c.store e, (Store.mem_after hids).2 (Or.inl ⟨e, he, rfl⟩),
      Store.id_effectOn _ _ _, Store.tag_effectOn _ _ _⟩

theorem Serves.mono (hregistry : c'.registry = c.registry) (hreserves : c.Reserves c'.store)
    (hids : c.store.DistinctIds) {id : Uuid} (h : c.Serves id) : c'.Serves id := by
  obtain ⟨e, he, hid, hknown⟩ := h
  obtain ⟨e', he', hid', htag⟩ := hreserves.exists_mem hids he
  exact ⟨e', he', hid'.trans hid, by rwa [hregistry, htag]⟩

/-- An event of an unregistered tag stays as it is. -/
theorem Gated.keeps_unregistered (h : c.Gated) {store : Store} (hreserves : c.Reserves store)
    {e : Event} (he : e ∈ c.store.events) (hunknown : c.registry.contains e.tag = false) :
    e ∈ store.events := by
  rcases hreserves with rfl | ⟨call, rfl, -, hserves⟩
  · exact he
  · exact (Store.mem_after h.ids).2
      (Or.inl ⟨e, he, h.effectOn_of_unregistered hserves he hunknown⟩)

/-- What a move makes of the store keeps the invariant, if its candidates and workers do. -/
theorem Gated.move (h : c.Gated) (hregistry : c'.registry = c.registry)
    (hreserves : c.Reserves c'.store)
    (hlisted : ∀ x ∈ c'.candidates, ∃ e ∈ c'.store.events, e.id = x.id ∧ e.tag = x.tag)
    (hworking : ∀ w ∈ c'.workers, c.Serves w.event.id) : c'.Gated := by
  have hmono : ∀ id, c.Serves id → c'.Serves id := fun _ => Serves.mono hregistry hreserves h.ids
  rcases hreserves with hsame | ⟨call, hafter, hfresh, hserves⟩
  · refine ⟨hsame ▸ h.ids, hlisted, fun w hw => hmono _ (hworking w hw), ?_, ?_⟩
    · rw [hsame]
      exact fun row hrow => hmono _ (h.rows row hrow)
    · rw [hsame, hregistry]
      exact h.untouched
  · refine ⟨hafter ▸ h.ids.after hfresh, hlisted, fun w hw => hmono _ (hworking w hw), ?_, ?_⟩
    · intro row hrow
      rw [hafter, Store.trail_after] at hrow
      rcases List.mem_append.1 hrow with hold | hwritten
      · exact hmono _ (h.rows row hold)
      · cases call with
        | append written =>
          rw [List.mem_singleton.1 hwritten]
          exact hmono _ (hserves _ rfl)
        | _ => cases hwritten
    · intro e he hunknown
      rw [hafter] at he
      rw [hregistry] at hunknown
      rcases (Store.mem_after h.ids).1 he with ⟨x, hx, rfl⟩ | hrecorded
      · rw [Store.tag_effectOn] at hunknown
        rw [h.effectOn_of_unregistered hserves hx hunknown]
        exact h.untouched x hx hunknown
      · obtain ⟨id, now, request, -, rfl, -⟩ := Store.Call.eq_insert_of_mem_recorded hrecorded
        exact ⟨rfl, rfl, rfl⟩

/-- Every move keeps the invariant. -/
theorem Gated.step (h : c.Gated) (hstep : c.Step m c')
    (hacts : ∀ p e action, m = .act p e action → c.Serves e.id) : c'.Gated := by
  have hreserves := hstep.reserves h hacts
  refine h.move hstep.registry_eq hreserves (fun x hx => ?_) fun w hw => ?_
  · have hkept : x ∈ c.candidates → ∃ e ∈ c'.store.events, e.id = x.id ∧ e.tag = x.tag := by
      intro hmem
      obtain ⟨e, he, hid, htag⟩ := h.listed x hmem
      obtain ⟨e', he', hid', htag'⟩ := hreserves.exists_mem h.ids he
      exact ⟨e', he', hid'.trans hid, htag'.trans htag⟩
    cases hstep with
    | opened _ _ hlisting =>
      rcases hlisting with rfl | rfl
      · cases hx
      · exact ⟨x, (Store.mem_of_mem_dispatchable hx).1, rfl, rfl⟩
    | passedOver hcandidates | claimed hcandidates =>
      exact hkept (hcandidates ▸ List.mem_cons_of_mem _ hx)
    | _ => exact hkept hx
  · rcases hstep.worker_cases hw with ⟨v, hv, -, hevent, -⟩ |
      ⟨x, rest, entry, -, hcandidates, hentry, rfl, -⟩
    · rw [hevent]
      exact h.working v hv
    · obtain ⟨e, he, hid, htag⟩ := h.listed x (hcandidates ▸ List.mem_cons_self)
      exact ⟨e, he, hid, by simp [htag, Registry.contains, hentry]⟩

end Core

namespace Service

/-- Recorded events get fresh identifiers, and loggers are used only for stored events of
registered tags, whose handlers were given them. -/
def usesGivenLoggers (s : Service) (m : Move) : Bool :=
  s.givesFresh m &&
    match m with
    | .act _ e _ => s.dispatcher.store.events.any fun x =>
        x.id = e.id && s.dispatcher.registry.contains x.tag
    | _ => true

section Gate

variable {s₀ s s' : Service} {m : Move} {e : Event}

theorem serves_of_usesGivenLoggers (hm : s.usesGivenLoggers m = true) {p : Policy}
    {action : Action} (heq : m = .act p e action) : s.core.Serves e.id := by
  subst heq
  have hany := (Bool.and_eq_true_iff.1 hm).2
  obtain ⟨x, hx, hboth⟩ := List.any_eq_true.1 hany
  simp only [Bool.and_eq_true, decide_eq_true_eq] at hboth
  exact ⟨x, hx, hboth⟩

theorem gated_after? (h : s.core.Gated) (hm : s.usesGivenLoggers m = true)
    (hafter : s.after? m = some s') : s'.core.Gated :=
  h.step (step_of_after? (Bool.and_eq_true_iff.1 hm).1 hafter)
    fun _ _ _ heq => serves_of_usesGivenLoggers hm heq

/-- Wherever a run leads, an event of an unregistered tag stays as it is. -/
theorem keeps_unregistered (h : s.core.Gated) (he : e ∈ s.dispatcher.store.events)
    (hunknown : s.dispatcher.registry.contains e.tag = false)
    (hreach : Reaches usesGivenLoggers s s') :
    s'.core.Gated ∧ s'.dispatcher.registry = s.dispatcher.registry ∧
      e ∈ s'.dispatcher.store.events := by
  refine hreach.induct (P := fun t => t.core.Gated ∧
    t.dispatcher.registry = s.dispatcher.registry ∧ e ∈ t.dispatcher.store.events)
    ⟨h, rfl, he⟩ ?_
  rintro t m t' ⟨hgated, hregistry, hmem⟩ hm hafter
  have hstep := step_of_after? (Bool.and_eq_true_iff.1 hm).1 hafter
  have hreserves := hstep.reserves hgated fun _ _ _ heq => serves_of_usesGivenLoggers hm heq
  refine ⟨gated_after? hgated hm hafter, hstep.registry_eq.trans hregistry, ?_⟩
  exact hgated.keeps_unregistered hreserves hmem (by rw [← hunknown, ← hregistry]; rfl)

variable {registry : Registry} {settings : Settings} {access : Access} {election : Election}
  {now : Instant}

/-- The event of every worker, and so of every call of a handler, has a registered tag;
the cycle that claimed it saw it as new, or as pending and overdue, and the class of the
tag was not among the paused classes that this cycle read.  An event of a tag that is not
registered is and stays as it was recorded, and there is no row for it. -/
theorem only_admitted_events_run
    (h : Reaches usesGivenLoggers
      (.ofDispatcher (.initial registry settings access election now)) s) :
    (∀ w ∈ s.dispatcher.workers, ∃ begun seen entry,
      Started usesGivenLoggers
        (.ofDispatcher (.initial registry settings access election now)) begun seen w s ∧
      registry.find? w.event.tag = some entry ∧ w.handler = entry.handler ∧
      entry.eventClass ∉ begun.pauses.classes ∧
      w.event = { seen with status := .processing } ∧
      (seen.status = .new ∨
        seen.status = .pending ∧
          ∃ due, seen.dueAt? = some due ∧ due < begun.dispatcher.now)) ∧
    ∀ e ∈ s.dispatcher.store.events, registry.contains e.tag = false →
      e.status = .new ∧ e.retries = 0 ∧ e.updated = e.created ∧
      (∀ row ∈ s.dispatcher.store.trail, row.event ≠ e.id) ∧
      ∀ s', Reaches usesGivenLoggers s s' →
        e ∈ s'.dispatcher.store.events ∧
          ∀ row ∈ s'.dispatcher.store.trail, row.event ≠ e.id := by
  have hfresh : ∀ s m, usesGivenLoggers s m = true → s.givesFresh m = true :=
    fun s m hm => (Bool.and_eq_true_iff.1 hm).1
  have hgated : s.core.Gated :=
    h.induct (P := fun s => s.core.Gated) Core.gated_initial
      fun _ _ _ hgated hm hafter => gated_after? hgated hm hafter
  have hregistry : s.dispatcher.registry = registry := registry_of_reaches hfresh h
  refine ⟨fun w hw => ?_, fun e he hunknown => ?_⟩
  · obtain ⟨begun, seen, entry, hstarted, hentry, hhandler, hevent⟩ :=
      (traced_of_reaches hfresh rfl rfl h).workers w hw
    obtain ⟨hbegun, listing, hsees⟩ := hstarted.sees
    refine ⟨begun, seen, entry, hstarted, by rw [hevent]; exact hentry, hhandler, ?_, hevent,
      hsees.ready⟩
    refine hsees.unpaused entry ?_
    rw [registry_of_reaches hfresh hbegun]
    exact hentry
  · have hnone : ∀ t : Service, t.core.Gated → t.dispatcher.registry = registry →
        e ∈ t.dispatcher.store.events → ∀ row ∈ t.dispatcher.store.trail, row.event ≠ e.id := by
      intro t ht hsame hmem row hrow hid
      obtain ⟨x, hx, hxid, hknown⟩ := ht.rows row hrow
      rw [ht.ids.eq_of_id_eq hx hmem (hxid.trans hid),
        show t.core.registry = registry from hsame, hunknown] at hknown
      cases hknown
    rw [← hregistry] at hunknown
    obtain ⟨hnew, hretries, hupdated⟩ := hgated.untouched e he hunknown
    refine ⟨hnew, hretries, hupdated, hnone s hgated hregistry he, fun s' hreach => ?_⟩
    obtain ⟨hgated', hregistry', hmem'⟩ := keeps_unregistered hgated he hunknown hreach
    exact ⟨hmem', hnone s' hgated' (hregistry'.trans hregistry) hmem'⟩

end Gate

/-- A tag registered twice, the second time under a class that is not the paused one. -/
def movedRegistry : Registry :=
  ((Registry.empty.register "a:r" .jupyter sleepingHandler).register "b:s" .jupyter
    sleepingHandler).register "a:r" .team sleepingHandler

def movedStart : Service :=
  .ofDispatcher
    (.initial movedRegistry ⟨1000, ⟨.ofSeconds 180, 5⟩, none⟩ .unhindered .always .epoch)

/-- Events of an unregistered tag, of the tag that was moved and of a paused tag are
recorded; a cycle goes through them, and one worker calls its handler. -/
def movedMoves : List Move :=
  [.register "z:r" "o" (.ofSeconds 300) (.ok .null),
    .register "a:r" "o" (.ofSeconds 300) (.ok .null),
    .register "b:s" "o" (.ofSeconds 300) (.ok .null),
    .pause .jupyter, .start, .loop, .loop, .loop, .loop, .loop, .loop, .loop, .loop,
    .resume .jupyter, .work 0, .work 0, .work 0, .work 0]

theorem only_admitted_events_run_of_movedMoves :
    ∃ s, Reaches usesGivenLoggers movedStart s ∧
      s.dispatcher.workers.map (fun w => (w.event.tag, w.isHandling)) = [("a:r", true)] ∧
      s.dispatcher.store.events.map Event.status = [.new, .processing, .new] ∧
      (∀ w ∈ s.dispatcher.workers, ∃ begun seen entry,
        Started usesGivenLoggers movedStart begun seen w s ∧
        movedRegistry.find? w.event.tag = some entry ∧ w.handler = entry.handler ∧
        entry.eventClass ∉ begun.pauses.classes ∧
        w.event = { seen with status := .processing } ∧
        (seen.status = .new ∨
          seen.status = .pending ∧
            ∃ due, seen.dueAt? = some due ∧ due < begun.dispatcher.now)) ∧
      ∀ e ∈ s.dispatcher.store.events, movedRegistry.contains e.tag = false →
        e.status = .new ∧ e.retries = 0 ∧ e.updated = e.created ∧
        (∀ row ∈ s.dispatcher.store.trail, row.event ≠ e.id) ∧
        ∀ s', Reaches usesGivenLoggers s s' →
          e ∈ s'.dispatcher.store.events ∧
            ∀ row ∈ s'.dispatcher.store.trail, row.event ≠ e.id := by
  have hrun : (movedStart.follow? usesGivenLoggers movedMoves).map (fun s =>
      (s.dispatcher.workers.map (fun w => (w.event.tag, w.isHandling)),
        s.dispatcher.store.events.map Event.status)) =
      some ([("a:r", true)], [.new, .processing, .new]) := by cbv
  obtain ⟨s, hs, hview⟩ := Option.map_eq_some_iff.1 hrun
  obtain ⟨hworkers, hstatus⟩ := Prod.mk.inj hview
  have hreaches : Reaches usesGivenLoggers movedStart s := Reaches.refl.follow? hs
  exact ⟨s, hreaches, hworkers, hstatus, only_admitted_events_run hreaches⟩

end Service
end EventDispatch
