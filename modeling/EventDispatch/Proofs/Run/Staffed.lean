import EventDispatch.Proofs.Run.Lanes
import EventDispatch.Proofs.Run.Stages

/-!
# Workers and their events

**Input.** A relation that says which stored events fit a worker.

**Invariant.** No two workers run one event, each finds its event in the store and it
fits, and the events that a cycle has yet to go through have no worker
(`Core.Staffed`).

**Results.** One lemma for each thing that a move does to the workers, the candidates
and the store.  What the relation has to satisfy is a hypothesis about the worker and
the event at hand; the relation may change along the way as long as the other workers
do not notice.  The event of a worker is changed by a step of that worker only, unless
it is sent back by a reset (`Staffed.leaves_event`).
-/

namespace EventDispatch
namespace Core

/-- No two workers run one event, and the event of each fits it. -/
structure Staffed (fits : Worker → Event → Prop) (c : Core) : Prop where
  serials : c.workers.Pairwise fun v w => v.serial ≠ w.serial
  numbered : ∀ w ∈ c.workers, w.serial < c.started
  apart : c.workers.Pairwise fun v w => v.event.id ≠ w.event.id
  fitted : ∀ w ∈ c.workers, ∃ e ∈ c.store.events, e.id = w.event.id ∧ fits w e
  once : c.candidates.Pairwise fun x y => x.id ≠ y.id
  free : ∀ x ∈ c.candidates, x ∈ c.store.events ∧ x.status ≠ .processing ∧
    ∀ w ∈ c.workers, w.event.id ≠ x.id

/-- The workers once one of them is at another stage. -/
def staged (w : Worker) (stage : Stage) (v : Worker) : Worker :=
  if v.serial = w.serial then { w with stage } else v

variable {fits fits' : Worker → Event → Prop} {c c' : Core} {m : Move}

namespace Staffed

theorem of_no_workers (hworkers : c.workers = []) (hcandidates : c.candidates = []) :
    c.Staffed fits := by
  refine ⟨?_, ?_, ?_, ?_, ?_, ?_⟩ <;> simp [hworkers, hcandidates]

/-- Whoever has the number of a worker is that worker. -/
theorem eq_of_serial (h : c.Staffed fits) {v w : Worker} (hv : v ∈ c.workers)
    (hw : w ∈ c.workers) (hserial : v.serial = w.serial) : v = w := by
  by_contra hne
  have : Std.Symm fun v w : Worker => v.serial ≠ w.serial := ⟨fun _ _ => Ne.symm⟩
  exact h.serials.forall hv hw hne hserial

theorem event_id_ne (h : c.Staffed fits) {v w : Worker} (hv : v ∈ c.workers)
    (hw : w ∈ c.workers) (hne : v ≠ w) : v.event.id ≠ w.event.id := by
  have : Std.Symm fun v w : Worker => v.event.id ≠ w.event.id := ⟨fun _ _ => Ne.symm⟩
  exact h.apart.forall hv hw hne

theorem staged_cases (h : c.Staffed fits) {v w : Worker} (hv : v ∈ c.workers)
    (hw : w ∈ c.workers) (stage : Stage) :
    v = w ∧ staged w stage v = { w with stage } ∨ v ≠ w ∧ staged w stage v = v := by
  unfold staged
  split
  · next hserial => exact Or.inl ⟨h.eq_of_serial hv hw hserial, rfl⟩
  · next hserial => exact Or.inr ⟨fun heq => hserial (heq ▸ rfl), rfl⟩

/-- A stage says neither who a worker is nor what it runs. -/
theorem staged_same (h : c.Staffed fits) {v w : Worker} (hv : v ∈ c.workers)
    (hw : w ∈ c.workers) (stage : Stage) :
    (staged w stage v).serial = v.serial ∧ (staged w stage v).event = v.event := by
  rcases h.staged_cases hv hw stage with ⟨rfl, hput⟩ | ⟨-, hput⟩
  · rw [hput]
    exact ⟨rfl, rfl⟩
  · rw [hput]
    exact ⟨rfl, rfl⟩

/-- Where the workers and the candidates stay, it is enough that the events of the
workers keep fitting, and the others stay as they are. -/
theorem of_store (h : c.Staffed fits) {store : Store} {f : Event → Event}
    (hkept : ∀ e ∈ c.store.events, f e ∈ store.events) (hid : ∀ e, (f e).id = e.id)
    (hfits : ∀ w ∈ c.workers, ∀ e ∈ c.store.events, e.id = w.event.id → fits w e →
      fits' w (f e))
    (hidle : ∀ x ∈ c.candidates, x.status ≠ .processing → f x = x) :
    ({ c with store } : Core).Staffed fits' where
  serials := h.serials
  numbered := h.numbered
  apart := h.apart
  fitted w hw := by
    obtain ⟨e, he, heid, hold⟩ := h.fitted w hw
    exact ⟨f e, hkept e he, (hid e).trans heid, hfits w hw e he heid hold⟩
  once := h.once
  free x hx := by
    obtain ⟨hmem, hstatus, hworkers⟩ := h.free x hx
    have hkeptX := hkept x hmem
    rw [hidle x hx hstatus] at hkeptX
    exact ⟨hkeptX, hstatus, hworkers⟩

/-- A call that changes no event may record one. -/
theorem record (h : c.Staffed fits) (hids : c.store.DistinctIds) (call : Store.Call)
    (hcall : ∀ e ∈ c.store.events, call.effectOn c.store e = e) :
    ({ c with store := c.store.after call } : Core).Staffed fits :=
  h.of_store (f := fun e => e)
    (fun e he => (Store.mem_after hids).2 (Or.inl ⟨e, he, hcall e he⟩)) (fun _ => rfl)
    (fun _ _ _ _ _ hold => hold) fun _ _ _ => rfl

/-- What a cycle lists has no worker, if the events of the workers do not come due. -/
theorem list (h : c.Staffed fits) (hids : c.store.DistinctIds) {candidates : List Event}
    (filter : DispatchFilter)
    (hlist : candidates = [] ∨ candidates = c.store.dispatchable filter c.now)
    (hrests : ∀ w ∈ c.workers, ∀ e ∈ c.store.events, e.id = w.event.id → fits w e →
      e.status ≠ .new ∧ (e.status = .pending → e.isOverdue c.now = false)) :
    ({ c with candidates } : Core).Staffed fits := by
  refine ⟨h.serials, h.numbered, h.apart, h.fitted, ?_, ?_⟩
  · rcases hlist with rfl | rfl
    · exact List.Pairwise.nil
    · exact Store.pairwise_id_dispatchable hids filter c.now
  · intro x hx
    rcases hlist with rfl | rfl
    · cases hx
    · obtain ⟨hmem, hstatus⟩ := Store.mem_of_mem_dispatchable hx
      refine ⟨hmem, ?_, fun w hw hid => ?_⟩
      · rcases hstatus with ⟨hpending, -⟩ | hnew
        · simp [hpending]
        · simp [hnew]
      · obtain ⟨e, he, heid, hfits⟩ := h.fitted w hw
        have heq : e = x := hids.eq_of_id_eq he hmem (heid.trans hid)
        subst heq
        obtain ⟨hleft, hnotdue⟩ := hrests w hw e he heid hfits
        rcases hstatus with ⟨hpending, hdue⟩ | hnew
        · rw [hnotdue hpending] at hdue
          cases hdue
        · exact hleft hnew

/-- A candidate is passed over. -/
theorem passOver (h : c.Staffed fits) {x : Event} {rest : List Event}
    (hcandidates : c.candidates = x :: rest) :
    ({ c with candidates := rest } : Core).Staffed fits := by
  have honce := h.once
  rw [hcandidates] at honce
  refine ⟨h.serials, h.numbered, h.apart, h.fitted, honce.tail, ?_⟩
  exact fun y hy => h.free y (hcandidates ▸ List.mem_cons_of_mem x hy)

/-- A claim starts a worker for an event that has none. -/
theorem claim (h : c.Staffed fits) {x : Event} {rest : List Event} {entry : Entry}
    {store : Store} (hcandidates : c.candidates = x :: rest)
    (hclaim : c.store.claim? c.now x.id = some store)
    (hnew : fits (.spawned c.started { x with status := .processing } entry.handler)
      { x with status := .processing, updated := c.now }) :
    ({ c with
      store
      workers := c.workers ++
        [.spawned c.started { x with status := .processing } entry.handler]
      started := c.started + 1
      candidates := rest } : Core).Staffed fits := by
  obtain ⟨hmem, -, hfree⟩ := h.free x (hcandidates ▸ List.mem_cons_self)
  have honce := h.once
  rw [hcandidates] at honce
  obtain ⟨hhead, htail⟩ := List.pairwise_cons.1 honce
  have hstore := Store.eq_revise_of_claim? hclaim
  have hother : ∀ e ∈ c.store.events, e.id ≠ x.id → e ∈ store.events := by
    intro e he hid
    rw [hstore]
    exact List.mem_map.2 ⟨e, he, if_neg hid⟩
  refine ⟨?_, ?_, ?_, ?_, htail, ?_⟩
  · refine List.pairwise_append.2 ⟨h.serials, List.pairwise_singleton _ _, ?_⟩
    intro w hw v hv
    rw [List.mem_singleton.1 hv]
    exact Nat.ne_of_lt (h.numbered w hw)
  · intro w hw
    rcases List.mem_append.1 hw with hold | hlast
    · exact Nat.lt_succ_of_lt (h.numbered w hold)
    · rw [List.mem_singleton.1 hlast]
      exact Nat.lt_succ_self c.started
  · refine List.pairwise_append.2 ⟨h.apart, List.pairwise_singleton _ _, ?_⟩
    intro w hw v hv
    rw [List.mem_singleton.1 hv]
    exact hfree w hw
  · intro w hw
    rcases List.mem_append.1 hw with hold | hlast
    · obtain ⟨e, he, hid, hfits⟩ := h.fitted w hold
      refine ⟨e, hother e he ?_, hid, hfits⟩
      rw [hid]
      exact hfree w hold
    · rw [List.mem_singleton.1 hlast]
      refine ⟨{ x with status := .processing, updated := c.now }, ?_, rfl, hnew⟩
      rw [hstore]
      exact List.mem_map.2 ⟨x, hmem, if_pos rfl⟩
  · intro y hy
    obtain ⟨hmemY, hstatusY, hfreeY⟩ := h.free y (hcandidates ▸ List.mem_cons_of_mem x hy)
    refine ⟨hother y hmemY (Ne.symm (hhead y hy)), hstatusY, fun w hw => ?_⟩
    rcases List.mem_append.1 hw with hold | hlast
    · exact hfreeY w hold
    · rw [List.mem_singleton.1 hlast]
      exact hhead y hy

/-- A step of a worker touches neither the other workers nor the candidates. -/
theorem work (h : c.Staffed fits) {w : Worker} {stage : Stage} {store : Store}
    {f : Event → Event} (hw : w ∈ c.workers) (hrevises : c.store.Revises store w.event.id f)
    (hown : ∀ e ∈ c.store.events, e.id = w.event.id → fits w e → fits' { w with stage } (f e))
    (hothers : ∀ v ∈ c.workers, v.event.id ≠ w.event.id → ∀ e, fits v e → fits' v e) :
    ({ c with store, workers := c.workers.map (staged w stage) } : Core).Staffed fits' := by
  have hmem : ∀ e ∈ c.store.events, f e ∈ store.events := by
    intro e he
    rw [hrevises.events]
    exact List.mem_map_of_mem he
  refine ⟨?_, ?_, ?_, ?_, h.once, ?_⟩
  · refine List.pairwise_map.2 (h.serials.imp_of_mem fun {u v} hu hv huv => ?_)
    rw [(h.staged_same hu hw stage).1, (h.staged_same hv hw stage).1]
    exact huv
  · intro v' hv'
    obtain ⟨v, hv, rfl⟩ := List.mem_map.1 hv'
    rw [(h.staged_same hv hw stage).1]
    exact h.numbered v hv
  · refine List.pairwise_map.2 (h.apart.imp_of_mem fun {u v} hu hv huv => ?_)
    rw [(h.staged_same hu hw stage).2, (h.staged_same hv hw stage).2]
    exact huv
  · intro v' hv'
    obtain ⟨v, hv, rfl⟩ := List.mem_map.1 hv'
    obtain ⟨e, he, hid, hfits⟩ := h.fitted v hv
    refine ⟨f e, hmem e he, ?_, ?_⟩
    · rw [(h.staged_same hv hw stage).2]
      exact (hrevises.same e).1.trans hid
    · rcases h.staged_cases hv hw stage with ⟨rfl, hput⟩ | ⟨hne, hput⟩
      · rw [hput]
        exact hown e he hid hfits
      · have hapart := h.event_id_ne hv hw hne
        rw [hput, hrevises.other e (hid ▸ hapart)]
        exact hothers v hv hapart e hfits
  · intro x hx
    obtain ⟨hmemX, hstatus, hfree⟩ := h.free x hx
    have hkept := hmem x hmemX
    rw [hrevises.other x (Ne.symm (hfree w hw))] at hkept
    refine ⟨hkept, hstatus, fun v' hv' => ?_⟩
    obtain ⟨v, hv, rfl⟩ := List.mem_map.1 hv'
    rw [(h.staged_same hv hw stage).2]
    exact hfree v hv

/-- Fewer workers are fewer to look after. -/
theorem drop (h : c.Staffed fits) (keep : Worker → Bool) :
    ({ c with workers := c.workers.filter keep } : Core).Staffed fits where
  serials := h.serials.filter _
  numbered w hw := h.numbered w (List.mem_filter.1 hw).1
  apart := h.apart.filter _
  fitted w hw := h.fitted w (List.mem_filter.1 hw).1
  once := h.once
  free x hx := by
    obtain ⟨hmem, hstatus, hfree⟩ := h.free x hx
    exact ⟨hmem, hstatus, fun w hw => hfree w (List.mem_filter.1 hw).1⟩

/-- The event of a worker is changed by a step of that worker only, or by a reset while
it is being run. -/
theorem leaves_event (h : c.Staffed fits) (hids : c.store.DistinctIds) (hstep : c.Step m c')
    {w : Worker} (hw : w ∈ c.workers) (hother : m ≠ .work w.serial)
    (hacts : ∀ p e action, m ≠ .act p e action)
    {e : Event} (he : e ∈ c.store.events) (hid : e.id = w.event.id)
    (hstale : m = .resetStale → e.status ≠ .processing)
    (hlead : c.leading = false → c'.leading = true → e.status ≠ .processing) :
    e ∈ c'.store.events := by
  cases hstep with
  | keep | repaused | elected | elapsed | clockSet | leadLost | passedOver | ended => exact he
  | recorded => exact (Store.mem_after hids).2 (Or.inl ⟨e, he, rfl⟩)
  | acted => exact absurd rfl (hacts _ _ _)
  | staleReset =>
    refine (Store.mem_after hids).2 (Or.inl ⟨e, he, ?_⟩)
    simp [Store.Call.effectOn, hstale rfl]
  | opened =>
    have hidle := fun hnot => hlead hnot c.leading_lead
    change e ∈ c.lead.store.events
    unfold Core.lead
    split
    · exact he
    · next hleading =>
      refine (Store.mem_after hids).2 (Or.inl ⟨e, he, ?_⟩)
      simp [Store.Call.effectOn, hidle (by simpa using hleading)]
  | claimed hcandidates _ hclaim =>
    obtain ⟨-, -, hfree⟩ := h.free _ (hcandidates ▸ List.mem_cons_self)
    rw [Store.eq_revise_of_claim? hclaim]
    refine List.mem_map.2 ⟨e, he, if_neg ?_⟩
    rw [hid]
    exact hfree w hw
  | worked hv hprogress =>
    obtain ⟨f, hrevises, -⟩ := hprogress.revises hids false
    rw [hrevises.events]
    refine List.mem_map.2 ⟨e, he, hrevises.other e ?_⟩
    rw [hid]
    exact h.event_id_ne hw hv fun heq => hother (heq ▸ rfl)

end Staffed

theorem Step.uptime_le (h : c.Step m c') : c.uptime ≤ c'.uptime := by
  cases h with
  | elapsed milliseconds => exact Nat.le_add_right _ _
  | opened =>
    unfold Core.lead
    split <;> exact Nat.le_refl _
  | _ => exact Nat.le_refl _

/-- A worker goes on by its own steps only. -/
theorem Step.keeps_worker (h : c.Step m c') {w : Worker} (hw : w ∈ c.workers)
    (hother : m ≠ .work w.serial) : w ∈ c'.workers := by
  cases h with
  | opened =>
    unfold Core.lead
    split <;> exact hw
  | claimed => exact List.mem_append_left _ hw
  | @worked v =>
    have hne : w.serial ≠ v.serial := fun heq => hother (by rw [heq])
    exact List.mem_map.2 ⟨w, hw, if_neg hne⟩
  | @ended v =>
    have hne : w.serial ≠ v.serial := fun heq => hother (by rw [heq])
    exact List.mem_filter.2 ⟨hw, by simpa using hne⟩
  | _ => exact hw

/-- The lead is taken as a cycle begins. -/
theorem Step.begins_of_lead (h : c.Step m c') (hbefore : c.leading = false)
    (hlater : c'.leading = true) : m = .loop ∧ c' ≠ c ∧ c.candidates = [] := by
  have hne : c' ≠ c := by
    rintro rfl
    rw [hbefore] at hlater
    cases hlater
  cases h with
  | opened _ hcandidates => exact ⟨rfl, hne, hcandidates⟩
  | leadLost => cases hlater
  | _ => cases hbefore.symm.trans hlater

/-- An event that has ended stays as it is. -/
theorem Step.keeps_ended (h : c.Step m c') (hids : c.store.DistinctIds) {e : Event}
    (he : e ∈ c.store.events) (hended : e.status.isTerminal = true) : e ∈ c'.store.events := by
  rcases h.writes with hsame | ⟨call, hafter, -⟩
  · rw [hsame]
    exact he
  · rw [hafter]
    exact (Store.mem_after hids).2 (Or.inl ⟨e, he, Store.effectOn_of_isTerminal _ hended call⟩)

end Core
end EventDispatch
