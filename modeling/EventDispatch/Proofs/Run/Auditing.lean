import EventDispatch.Proofs.Run.Trails

/-!
# The trail agrees with the status

**Input.** Any run of a service over a store within reach: events are recorded, cycles
run, workers go on, the lead is taken and lost, expired events are sent back.  Handlers do
what they like, and whoever was called for an event may keep its logger and go on to write
rows, at any pace and also once the run of the event ended.

**Algorithm.** `Scribed` is a service along with the calls of kept loggers that are under
way.  A logger writes its row in one step and changes the status in another, and anything
else may happen in between.

**Invariant.** Each event agrees with its rows (`Event.AgreesWith`).  Whoever acts for an
event acts for one that was dispatched, with its actions in order; the trail of an event
has a row before its handler is called (`Scribed.Audited`).

**Results.** Every step keeps this (`Scribed.Audited.after?`), so
`trail_agrees_with_status`: a new event is as it was recorded and has no row, a failed one
has a row of level `fatal`, each trail begins with the opening row, and what completed or
was retried has a trail.
-/

namespace EventDispatch

/-! ## Workers -/

/-- What a worker has ahead is in order.  Once the opening is done the trail has a row, and
it keeps it. -/
def Worker.Ordered (w : Worker) (rows : List (LogLevel × String)) : Prop :=
  match w.stage with
  | .queued => True
  | .opening todo => InOrder w.event.tag rows todo ∧ rows ++ todo.flatMap Action.rows ≠ []
  | .handling todo _ _ _ => InOrder w.event.tag rows todo ∧ rows ≠ []
  | .closing todo => InOrder w.event.tag rows todo ∧ rows ≠ []

theorem Worker.Ordered.mono {w : Worker} {rows rows' : List (LogLevel × String)}
    (h : w.Ordered rows) (hmore : rows ⊆ rows') : w.Ordered rows' := by
  unfold Worker.Ordered at h ⊢
  split
  · trivial
  · next hstage =>
    rw [hstage] at h
    refine ⟨h.1.mono hmore, ne_nil_of_subset (List.append_subset.2 ?_) h.2⟩
    exact ⟨List.Subset.trans hmore (List.subset_append_left _ _), List.subset_append_right _ _⟩
  · next hstage =>
    rw [hstage] at h
    exact ⟨h.1.mono hmore, ne_nil_of_subset hmore h.2⟩
  · next hstage =>
    rw [hstage] at h
    exact ⟨h.1.mono hmore, ne_nil_of_subset hmore h.2⟩

namespace Dispatcher

variable {d d' : Dispatcher} {w : Worker} {stage : Stage}

theorem ordered_of_handlingStep (haccess : d.access = .unhindered)
    (hids : d.store.DistinctIds) (hknows : d.store.Knows w.event.id w.event.tag)
    {todo : List Action} {ending : Ending} {pause : Pause} {limit : Nat}
    (hordered : InOrder w.event.tag (d.store.rowsOf w.event.id) todo)
    (hrows : d.store.rowsOf w.event.id ≠ [])
    (h : d.handlingStep w.event todo ending pause limit = some (d', stage)) :
    d.store.Proceeds d'.store ∧
      Worker.Ordered { w with stage } (d'.store.rowsOf w.event.id) := by
  unfold handlingStep at h
  split at h
  · cases h
    exact ⟨Or.inl rfl, inOrder_retryActions hrows _ _ _, hrows⟩
  · split at h
    · split at h
      · cases h
        exact ⟨Or.inl rfl, hordered, hrows⟩
      · cases h
    · split at h
      · cases h
        exact ⟨Or.inl rfl, hordered, hrows⟩
      · cases h
    · cases h
      exact ⟨Or.inl rfl, inOrder_closingActions hrows _ _ _, hrows⟩
    · cases h
      exact ⟨Or.inl rfl, by simpa [Action.rows] using hordered.2, hrows⟩
    · cases h
      exact ⟨Or.inl rfl, by simpa [Action.rows] using hordered.2, hrows⟩
    · cases h
      obtain ⟨hproceeds, hattends⟩ :=
        attends_performUnder haccess hids d.settings.policy ⟨hknows, hordered⟩
      exact ⟨hproceeds, hattends.inOrder, ne_nil_of_subset (hproceeds.rows_subset _) hrows⟩

/-- A step of a worker makes a call that the trail admits, if any, and leaves what is ahead
in order. -/
theorem ordered_of_workerStep (haccess : d.access = .unhindered) (hids : d.store.DistinctIds)
    (hknows : d.store.Knows w.event.id w.event.tag)
    (hordered : w.Ordered (d.store.rowsOf w.event.id))
    (h : d.workerStep w = some (d', some stage)) :
    d.store.Proceeds d'.store ∧
      Worker.Ordered { w with stage } (d'.store.rowsOf w.event.id) := by
  unfold Worker.Ordered at hordered
  unfold workerStep at h
  split at h
  · split at h
    · cases h
      refine ⟨Or.inl rfl, inOrder_openingActions _ _, ?_⟩
      exact List.append_ne_nil_of_right_ne_nil _ nofun
    · cases h
  · next hstage =>
    cases h
    rw [hstage] at hordered
    have hrows : d.store.rowsOf w.event.id ≠ [] := by simpa using hordered.2
    unfold beginCall
    split
    · exact ⟨Or.inl rfl, inOrder_retryActions hrows _ _ _, hrows⟩
    · exact ⟨Or.inl rfl, inOrder_deeds hrows _ _, hrows⟩
  · next action rest hstage =>
    cases h
    rw [hstage] at hordered
    obtain ⟨hproceeds, hattends⟩ :=
      attends_performUnder haccess hids d.settings.policy ⟨hknows, hordered.1⟩
    refine ⟨hproceeds, hattends.inOrder, ?_⟩
    rw [perform, rowsOf_performUnder haccess, List.append_assoc]
    exact hordered.2
  · next hstage =>
    rw [hstage] at hordered
    obtain ⟨⟨d₁, stage₁⟩, hstep, heq⟩ := Option.map_eq_some_iff.1 h
    cases heq
    exact ordered_of_handlingStep haccess hids hknows hordered.1 hordered.2 hstep
  · next action rest hstage =>
    cases h
    rw [hstage] at hordered
    obtain ⟨hproceeds, hattends⟩ :=
      attends_performUnder haccess hids d.settings.policy ⟨hknows, hordered.1⟩
    exact ⟨hproceeds, hattends.inOrder, ne_nil_of_subset (hproceeds.rows_subset _) hordered.2⟩
  · cases h

/-- A handler is called only once the trail of its event has a row. -/
theorem rows_ne_nil_of_nextCalls (hordered : w.Ordered (d.store.rowsOf w.event.id))
    (hcalls : w.nextCalls ≠ 0) : d.store.rowsOf w.event.id ≠ [] := by
  unfold Worker.nextCalls at hcalls
  split at hcalls
  · next hstage =>
    simp only [Worker.Ordered, hstage] at hordered
    simpa using hordered.2
  · exact absurd rfl hcalls

end Dispatcher

/-! ## Moves of the service -/

namespace Core

/-- The trails agree with the events, and workers act in order for events that were
dispatched. -/
structure Audited (c : Core) : Prop where
  store : c.store.Audited
  listed : ∀ x ∈ c.candidates, ∃ e ∈ c.store.events, e.id = x.id ∧ e.tag = x.tag
  workers : ∀ w ∈ c.workers,
    c.store.Knows w.event.id w.event.tag ∧ w.Ordered (c.store.rowsOf w.event.id)

variable {c c' : Core} {m : Move}

theorem audited_initial {registry : Registry} {settings : Settings} {access : Access}
    {election : Election} {now : Instant} :
    (Service.ofDispatcher (.initial registry settings access election now)).core.Audited := by
  refine ⟨Store.audited_empty, ?_, ?_⟩
  all_goals
    intro x hx
    cases hx

/-- A call that the trail admits keeps the invariant, if candidates and workers that come
with it have it. -/
theorem Audited.proceed (h : c.Audited) (hproceeds : c.store.Proceeds c'.store)
    (hlisted : ∀ x ∈ c'.candidates, x ∈ c.candidates ∨ x ∈ c'.store.events)
    (hworkers : ∀ w ∈ c'.workers, w ∈ c.workers ∨
      c'.store.Knows w.event.id w.event.tag ∧ w.Ordered (c'.store.rowsOf w.event.id)) :
    c'.Audited := by
  refine ⟨hproceeds.audited h.store, fun x hx => ?_, fun w hw => ?_⟩
  · rcases hlisted x hx with hold | hstored
    · obtain ⟨e, he, hid, htag⟩ := h.listed x hold
      obtain ⟨e', he', hlater⟩ := (hproceeds.later h.store.ids).exists_mem he
      exact ⟨e', he', hlater.id.trans hid, hlater.tag.trans htag⟩
    · exact ⟨x, hstored, rfl, rfl⟩
  · rcases hworkers w hw with hold | hnew
    · obtain ⟨hknows, hordered⟩ := h.workers w hold
      exact ⟨hproceeds.knows h.store.ids hknows, hordered.mono (hproceeds.rows_subset _)⟩
    · exact hnew

/-- What is not done for an event makes a call that the trail admits, if any, and keeps the
invariant. -/
theorem Audited.step (h : c.Audited) (hstep : c.Step m c') (hwork : ∀ serial, m ≠ .work serial)
    (hact : ∀ p e action, m ≠ .act p e action) : c.store.Proceeds c'.store ∧ c'.Audited := by
  have hkept : c.store.Proceeds c'.store → c'.candidates ⊆ c.candidates →
      c'.workers = c.workers → c.store.Proceeds c'.store ∧ c'.Audited := by
    intro hproceeds hcandidates hworkers
    exact ⟨hproceeds, h.proceed hproceeds (fun x hx => Or.inl (hcandidates hx))
      fun w hw => Or.inl (hworkers ▸ hw)⟩
  -- only a listing brings in candidates, and only a claim a worker
  cases hstep with
  | keep | repaused | elected | elapsed | clockSet | leadLost =>
    exact hkept (Or.inl rfl) (List.Subset.refl _) rfl
  | passedOver hcandidates =>
    exact hkept (Or.inl rfl) (hcandidates ▸ List.subset_cons_self _ _) rfl
  | recorded tag owner deadline payload id hfresh =>
    refine hkept (Or.inr ⟨.insert id c.now ⟨tag, owner, payload, deadline⟩, ?_, rfl⟩)
      (List.Subset.refl _) rfl
    exact Option.isNone_iff_eq_none.1 hfresh
  | staleReset =>
    exact hkept (Or.inr ⟨.resetStale c.now c.now, trivial, rfl⟩) (List.Subset.refl _) rfl
  | opened _ _ hlisting =>
    have hproceeds : c.store.Proceeds c.lead.store := by
      unfold lead
      split
      · exact Or.inl rfl
      · exact Or.inr ⟨.resetProcessing c.now, trivial, rfl⟩
    have hworkers : c.lead.workers = c.workers := by
      unfold lead
      split <;> rfl
    refine ⟨hproceeds, h.proceed hproceeds (fun x hx => ?_) fun w hw => Or.inl (hworkers ▸ hw)⟩
    rcases hlisting with rfl | rfl
    · cases hx
    · exact Or.inr (Store.mem_of_mem_dispatchable hx).1
  | @claimed e rest entry store hcandidates hentry hclaim =>
    have hproceeds : c.store.Proceeds store :=
      Or.inr ⟨.claim c.now e.id, trivial, by simp [Store.after, hclaim]⟩
    refine ⟨hproceeds, h.proceed hproceeds (fun x hx => Or.inl ?_) fun w hw => ?_⟩
    · exact hcandidates ▸ List.mem_cons_of_mem _ hx
    · rcases List.mem_append.1 hw with hold | hlast
      · exact Or.inl hold
      · rw [List.mem_singleton.1 hlast]
        obtain ⟨x, hx, hid, htag⟩ := h.listed e (hcandidates ▸ List.mem_cons_self)
        refine Or.inr ⟨⟨{ x with status := .processing, updated := c.now }, ?_, hid, htag,
          by simp⟩, trivial⟩
        rw [Store.eq_revise_of_claim? hclaim]
        exact List.mem_map.2 ⟨x, hx, if_pos hid⟩
  | acted => exact absurd rfl (hact _ _ _)
  | worked | ended => exact absurd rfl (hwork _)

end Core

/-! ## Kept loggers -/

/-- A move that does something in the place of a logger or of the store. -/
def Move.standsIn : Move → Bool
  | .act _ _ _ => true
  | .hinder _ => true
  | _ => false

/-- Somebody who kept the logger of an event, with what is left of a call of it. -/
structure Scribe where
  policy : Policy
  event : Event
  todo : List Action

/-- A service, and the calls of kept loggers that are under way. -/
structure Scribed where
  service : Service
  scribes : List Scribe

namespace Scribed

inductive Move where
  /-- Something happens to the service. -/
  | service (m : EventDispatch.Move)
  /-- Somebody who kept the logger of an event begins to write a row. -/
  | writes (p : Policy) (e : Event) (level : LogLevel) (message : String)
  /-- Such a call goes on by a step. -/
  | goesOn (place : Nat)

def after? (x : Scribed) : Move → Option Scribed
  | .service m => (x.service.after? m).map fun service => { x with service }
  | .writes p e level message =>
    some { x with scribes := x.scribes ++ [⟨p, e, logActions e level message⟩] }
  | .goesOn place =>
    match x.scribes[place]? with
    | some ⟨p, e, action :: rest⟩ =>
      (x.service.after? (.act p e action)).map fun service =>
        ⟨service, x.scribes.set place ⟨p, e, rest⟩⟩
    | _ => none

/-- Recorded events get fresh identifiers, the store stays within reach, and the logger of
an event is kept only by those that were called for it. -/
def keepsLoggers (x : Scribed) : Move → Bool
  | .service m => x.service.givesFresh m && !m.standsIn
  | .writes _ e _ _ => 0 < x.service.dispatcher.callsFor e.id
  | .goesOn _ => true

/-- Where steps lead. -/
inductive Reaches (start : Scribed) : Scribed → Prop
  | refl : Reaches start start
  | move {x x' : Scribed} (m : Move) :
      Reaches start x → x.keepsLoggers m = true → x.after? m = some x' → Reaches start x'

/-- Makes steps one after the other, as long as each is allowed and possible. -/
def follow? : Scribed → List Move → Option Scribed
  | x, [] => some x
  | x, m :: rest => if x.keepsLoggers m then (x.after? m).bind (follow? · rest) else none

theorem Reaches.follow? {start x x' : Scribed} (h : Reaches start x) {moves : List Move}
    (hrun : x.follow? moves = some x') : Reaches start x' := by
  induction moves generalizing x with
  | nil =>
    cases hrun
    exact h
  | cons m rest ih =>
    simp only [Scribed.follow?] at hrun
    split at hrun
    · next hm =>
      obtain ⟨t, ht, hrest⟩ := Option.bind_eq_some_iff.1 hrun
      exact ih (.move m h hm ht) hrest
    · cases hrun

/-- The invariant: trails agree with their events, and whoever acts for an event acts in
order for one that was dispatched. -/
structure Audited (x : Scribed) : Prop where
  access : x.service.dispatcher.access = .unhindered
  core : x.service.core.Audited
  called : ∀ id, 0 < x.service.dispatcher.callsFor id →
    ∃ tag, x.service.dispatcher.store.Knows id tag ∧ x.service.dispatcher.store.rowsOf id ≠ []
  scribes : ∀ k ∈ x.scribes, ∃ tag, x.service.dispatcher.store.Attends k.event.id tag k.todo

section Audit

variable {x x' : Scribed} {s' : Service}

/-- What proceeds keeps the invariant, if its core does and nobody is called for an event
without a trail. -/
theorem Audited.proceed (h : x.Audited) (hproceeds : x.service.dispatcher.store.Proceeds
      s'.dispatcher.store) (haccess : s'.dispatcher.access = x.service.dispatcher.access)
    (hcore : s'.core.Audited)
    (hcalled : ∀ id, 0 < s'.dispatcher.callsFor id → 0 < x.service.dispatcher.callsFor id ∨
      ∃ tag, x.service.dispatcher.store.Knows id tag ∧
        x.service.dispatcher.store.rowsOf id ≠ []) : Audited { x with service := s' } where
  access := haccess.trans h.access
  core := hcore
  called id hpos := by
    obtain ⟨tag, hknows, hrows⟩ := (hcalled id hpos).elim (h.called id) fun hcalled => hcalled
    exact ⟨tag, hproceeds.knows h.core.store.ids hknows,
      ne_nil_of_subset (hproceeds.rows_subset id) hrows⟩
  scribes k hk := by
    obtain ⟨tag, hattends⟩ := h.scribes k hk
    exact ⟨tag, hattends.proceed h.core.store.ids hproceeds⟩

/-- A worker goes on. -/
theorem Audited.work (h : x.Audited) {serial : Nat}
    (hafter : x.service.after? (.work serial) = some s') :
    Audited { x with service := s' } := by
  obtain ⟨d, hwork, rfl⟩ := Option.map_eq_some_iff.1 hafter
  obtain ⟨w, hw, rfl, ⟨hstage, rfl⟩ | ⟨d₁, stage, hstep, rfl⟩⟩ :=
    Dispatcher.worker_of_workOn? hwork
  · refine h.proceed (Or.inl rfl) rfl ?_ fun id hpos => Or.inl hpos
    exact h.core.proceed (Or.inl rfl) (fun e he => Or.inl he)
      fun v hv => Or.inl (List.mem_filter.1 hv).1
  · obtain ⟨hknows, hordered⟩ := h.core.workers w hw
    obtain ⟨hproceeds, hordered'⟩ :=
      Dispatcher.ordered_of_workerStep h.access h.core.store.ids hknows hordered hstep
    obtain ⟨haccess, hcalls⟩ := Dispatcher.calls_of_workerStep hstep
    have hcore := Dispatcher.core_putWorker hstep x.service.candidates x.service.pauses.classes
    refine h.proceed hproceeds haccess ?_ fun id hpos => ?_
    · change ((d₁.putWorker { w with stage }).core x.service.candidates
        x.service.pauses.classes).Audited
      rw [hcore]
      refine h.core.proceed hproceeds (fun e he => Or.inl he) fun v hv => ?_
      obtain ⟨u, hu, rfl⟩ := List.mem_map.1 hv
      split
      · exact Or.inr ⟨hproceeds.knows h.core.store.ids hknows, hordered'⟩
      · exact Or.inl hu
    · have hcount : (d₁.putWorker { w with stage }).callsFor id = d₁.callsFor id := rfl
      rw [show Service.dispatcher { x.service with dispatcher := d₁.putWorker { w with stage } } =
        d₁.putWorker { w with stage } from rfl, hcount, hcalls id] at hpos
      by_cases hid : id = w.event.id
      · subst hid
        by_cases hnext : w.nextCalls = 0
        · rw [if_pos rfl, hnext] at hpos
          exact Or.inl hpos
        · exact Or.inr ⟨_, hknows, Dispatcher.rows_ne_nil_of_nextCalls hordered hnext⟩
      · rw [if_neg hid] at hpos
        exact Or.inl hpos

/-- The service does something else than going on with a worker. -/
theorem Audited.move (h : x.Audited) {m : EventDispatch.Move}
    (hfresh : x.service.givesFresh m = true) (hwork : ∀ serial, m ≠ .work serial)
    (hact : ∀ p e action, m ≠ .act p e action) (hhinder : ∀ access, m ≠ .hinder access)
    (hafter : x.service.after? m = some s') : Audited { x with service := s' } := by
  obtain ⟨hproceeds, hcore⟩ := h.core.step (Service.step_of_after? hfresh hafter) hwork hact
  obtain ⟨haccess, hcalls, -⟩ := Service.calls_of_after? hafter hwork hhinder
  refine h.proceed hproceeds haccess hcore fun id hpos => Or.inl ?_
  unfold Dispatcher.callsFor at hpos ⊢
  rwa [hcalls] at hpos

/-- Somebody who kept a logger goes on. -/
theorem Audited.act (h : x.Audited) {place : Nat} {p : Policy} {e : Event} {action : Action}
    {rest : List Action} (hplace : x.scribes[place]? = some ⟨p, e, action :: rest⟩)
    (hafter : x.service.after? (.act p e action) = some s') :
    Audited ⟨s', x.scribes.set place ⟨p, e, rest⟩⟩ := by
  cases hafter
  obtain ⟨tag, hattends⟩ := h.scribes _ (List.mem_of_getElem? hplace)
  obtain ⟨hproceeds, hattends'⟩ :=
    Dispatcher.attends_performUnder h.access h.core.store.ids p hattends
  have hcore : Core.Audited { x.service.core with
      store := (x.service.dispatcher.performUnder p e action).store } :=
    h.core.proceed hproceeds (fun y hy => Or.inl hy) fun w hw => Or.inl hw
  have hservice : Audited { x with
      service := { x.service with
        dispatcher := x.service.dispatcher.performUnder p e action } } :=
    h.proceed hproceeds rfl hcore fun id hpos => Or.inl hpos
  obtain ⟨haccess, hsame, hcalled, hscribes⟩ := hservice
  refine ⟨haccess, hsame, hcalled, fun k hk => ?_⟩
  rcases List.mem_or_eq_of_mem_set hk with hold | rfl
  · exact hscribes k hold
  · exact ⟨tag, hattends'⟩

/-- Every step keeps the invariant. -/
theorem Audited.after? (h : x.Audited) {m : Move} (hm : x.keepsLoggers m = true)
    (hafter : x.after? m = some x') : x'.Audited := by
  cases m with
  | service m =>
    obtain ⟨s', hmoved, rfl⟩ := Option.map_eq_some_iff.1 hafter
    obtain ⟨hfresh, hown⟩ := Bool.and_eq_true_iff.1 hm
    by_cases hwork : ∃ serial, m = .work serial
    · obtain ⟨serial, rfl⟩ := hwork
      exact h.work hmoved
    · refine h.move hfresh (fun serial heq => hwork ⟨serial, heq⟩) ?_ ?_ hmoved
      · rintro p e action rfl
        cases hown
      · rintro access rfl
        cases hown
  | writes p e level message =>
    cases hafter
    refine ⟨h.access, h.core, h.called, fun k hk => ?_⟩
    rcases List.mem_append.1 hk with hold | hlast
    · exact h.scribes k hold
    · obtain ⟨tag, hknows, hrows⟩ := h.called e.id (of_decide_eq_true hm)
      rw [List.mem_singleton.1 hlast]
      exact ⟨tag, hknows, inOrder_logActions hrows e level message⟩
  | goesOn place =>
    simp only [Scribed.after?] at hafter
    split at hafter
    · next hplace =>
      obtain ⟨s', hmoved, rfl⟩ := Option.map_eq_some_iff.1 hafter
      exact h.act hplace hmoved
    · cases hafter

variable {registry : Registry} {settings : Settings} {election : Election} {now : Instant}

theorem audited_of_reaches
    (h : Reaches ⟨.ofDispatcher (.initial registry settings .unhindered election now), []⟩ x) :
    x.Audited := by
  induction h with
  | refl =>
    refine ⟨rfl, Core.audited_initial, fun id hpos => absurd hpos (Nat.lt_irrefl 0), ?_⟩
    intro k hk
    cases hk
  | move m _ hm hafter ih => exact ih.after? hm hafter

/-- Wherever a run leads, a new event has no retry and no row and was not changed since it
was recorded; a failed event has a row of level `fatal`; the first row of a trail says that
its event is dispatched; and an event that completed or was retried has a trail.  There is
no row without an event. -/
theorem trail_agrees_with_status
    (h : Reaches ⟨.ofDispatcher (.initial registry settings .unhindered election now), []⟩ x) :
    (∀ e ∈ x.service.dispatcher.store.events,
      (e.status = .new → e.retries = 0 ∧ e.updated = e.created ∧
        x.service.dispatcher.store.rowsOf e.id = []) ∧
      (e.status = .failed →
        ∃ message, (LogLevel.fatal, message) ∈ x.service.dispatcher.store.rowsOf e.id) ∧
      (∀ row, (x.service.dispatcher.store.rowsOf e.id).head? = some row →
        row = (.info, "dispatching event " ++ e.tag)) ∧
      (e.status = .completed ∨ 1 ≤ e.retries →
        x.service.dispatcher.store.rowsOf e.id ≠ [])) ∧
    ∀ row ∈ x.service.dispatcher.store.trail,
      ∃ e ∈ x.service.dispatcher.store.events, e.id = row.event := by
  have haudited := (audited_of_reaches h).core.store
  refine ⟨fun e he => ?_, haudited.rows⟩
  obtain ⟨hnew, hfailed, hopens, hrun⟩ := haudited.events e he
  exact ⟨hnew, hfailed, hopens, hrun⟩

end Audit

/-- Handlers that return at once: for one tag the event is done, for another it is to be
run again. -/
def scribedRegistry : Registry :=
  (Registry.empty.register "a:r" .team (.ofScripts [⟨[], .outcome .done⟩])).register "b:s" .team
    (.ofScripts [⟨[], .outcome .retry⟩])

def scribedStart : Scribed :=
  ⟨.ofDispatcher
    (.initial scribedRegistry ⟨1000, ⟨.ofSeconds 180, 5⟩, none⟩ .unhindered .always .epoch), []⟩

/-- A row of level `fatal` from a kept logger of the event of this number. -/
def scribedWrites (serial : Nat) (tag : Tag) (message : String) : Move :=
  .writes ⟨.ofSeconds 180, 5⟩
    (NewEvent.recorded ⟨tag, "o", .null, .ofSeconds 300⟩ (.ofSerial serial) .epoch) .fatal message

/-- Two events are dispatched.  A kept logger writes a row of level `fatal` for the first,
which completes before that takes effect.  The second goes back to wait, and a kept logger
fails it.  A third is registered. -/
def scribedMoves : List Move :=
  [.service (.register "a:r" "o" (.ofSeconds 300) (.ok .null)),
    .service (.register "b:s" "o" (.ofSeconds 300) (.ok .null)),
    .service .start] ++
  List.replicate 6 (.service .loop) ++ List.replicate 4 (.service (.work 0)) ++
  [scribedWrites 0 "a:r" "late", .goesOn 0, .goesOn 0, .service (.work 0), .service (.work 0),
    .goesOn 0] ++
  List.replicate 6 (.service (.work 1)) ++
  [scribedWrites 1 "b:s" "given up", .goesOn 1, .goesOn 1, .goesOn 1,
    .service (.register "a:r" "o" (.ofSeconds 300) (.ok .null))]

theorem trail_agrees_with_status_of_scribedMoves :
    ∃ x, Reaches scribedStart x ∧
      x.service.dispatcher.store.events.map (fun e => (e.status, e.retries)) =
        [(.completed, 0), (.failed, 1), (.new, 0)] ∧
      (∀ e ∈ x.service.dispatcher.store.events,
        (e.status = .new → e.retries = 0 ∧ e.updated = e.created ∧
          x.service.dispatcher.store.rowsOf e.id = []) ∧
        (e.status = .failed →
          ∃ message, (LogLevel.fatal, message) ∈ x.service.dispatcher.store.rowsOf e.id) ∧
        (∀ row, (x.service.dispatcher.store.rowsOf e.id).head? = some row →
          row = (.info, "dispatching event " ++ e.tag)) ∧
        (e.status = .completed ∨ 1 ≤ e.retries →
          x.service.dispatcher.store.rowsOf e.id ≠ [])) ∧
      ∀ row ∈ x.service.dispatcher.store.trail,
        ∃ e ∈ x.service.dispatcher.store.events, e.id = row.event := by
  have hrun : (scribedStart.follow? scribedMoves).map (fun x =>
      x.service.dispatcher.store.events.map fun e => (e.status, e.retries)) =
      some [(.completed, 0), (.failed, 1), (.new, 0)] := by cbv
  obtain ⟨x, hx, hview⟩ := Option.map_eq_some_iff.1 hrun
  have hreaches : Reaches scribedStart x := Reaches.refl.follow? hx
  exact ⟨x, hreaches, hview, trail_agrees_with_status hreaches⟩

end Scribed
end EventDispatch
