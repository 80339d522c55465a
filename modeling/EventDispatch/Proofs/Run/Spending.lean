import EventDispatch.Proofs.Run.Budget

/-!
# What a run spends

**Input.** A worker and its stored event.  Whoever has a logger of an event may use it at
any time, before the handler is called, while it runs and after it.

**Rule.** An event is claimed with some number of retries.  From then on it is being run,
or waits with one retry more, or has ended (`Standing.Turned`).  Nobody but a claim
brings it back.

**Invariant.** As long as a worker has its last actions ahead of it, one of them decides
the run: it ends the event, or sends it back while there is a retry left
(`Worker.Spends`).  Every event without a worker has ended, or is to be run and has not
used up its retries (`Core.Spending`).

**Results.** Once no worker is left, every event that was run has ended or waits with one
retry more than before, and no more than the policy allows.  The number of claims that
an event is still good for never grows (`Action.Turns.claimsLeft_le`).
-/

namespace EventDispatch

namespace Standing

/-- What may have become of an event since it was claimed with so many retries. -/
inductive Turned (retries : Int) : Standing → Prop
  | running : Turned retries ⟨.processing, retries⟩
  | waiting : Turned retries ⟨.pending, retries + 1⟩
  | ended {x : Standing} : x.status.isTerminal = true → Turned retries x

/-- What has become of an event once its run is decided. -/
inductive Spent (most retries : Int) : Standing → Prop
  | waiting : retries < most → Spent most retries ⟨.pending, retries + 1⟩
  | ended {x : Standing} : x.status.isTerminal = true → Spent most retries x

/-- The standing of an event without a worker. -/
def Idles (most : Int) (x : Standing) : Prop :=
  x.status.isTerminal = true ∨ (x.status = .new ∨ x.status = .pending) ∧ x.retries ≤ most

end Standing

/-- The action ends the event, or sends it back while a retry is left. -/
def Action.Decides (most retries : Int) : Action → Prop
  | .returnAfterError => retries < most
  | .giveBack => retries < most
  | .markFailed => True
  | .markCompleted => True
  | .narrate _ => False
  | .append _ _ => False
  | .sleep _ => False
  | .pass _ => False

/-- How often an event may still be claimed; the run under way is not counted. -/
def Event.claimsLeft (most : Int) (e : Event) : Nat :=
  match e.status with
  | .new => (most + 1 - e.retries).toNat
  | .pending => (most + 1 - e.retries).toNat
  | .processing => (most - e.retries).toNat
  | .completed => 0
  | .failed => 0

namespace Standing

variable {most retries : Int} {x : Standing} {p : Policy} {clock : Instant} {action : Action}
  {e e' : Event}

theorem ne_processing_of_isTerminal (h : x.status.isTerminal = true) : x.status ≠ .processing := by
  intro hrun
  simp [hrun, Status.isTerminal] at h

theorem Turned.retries_eq (h : Turned retries x) (hrun : x.status = .processing) :
    x.retries = retries := by
  cases h with
  | running => rfl
  | waiting => cases hrun
  | ended hended => exact absurd hrun (ne_processing_of_isTerminal hended)

theorem Turned.turns (h : Turned retries e.standing) (hturns : action.Turns p clock e e') :
    Turned retries e'.standing := by
  cases hturns with
  | keeps => exact h
  | sendsBack _ hrun =>
    have hsame : e.retries = retries := h.retries_eq hrun
    unfold Event.standing Event.sentBack
    rw [hsame]
    exact .waiting
  | fails => exact .ended rfl
  | completes => exact .ended rfl

theorem Spent.ne_processing (h : Spent most retries x) : x.status ≠ .processing := by
  cases h with
  | waiting => exact nofun
  | ended hended => exact ne_processing_of_isTerminal hended

theorem Spent.turns (h : Spent most retries e.standing) (hturns : action.Turns p clock e e') :
    Spent most retries e'.standing := by
  cases hturns with
  | keeps => exact h
  | sendsBack _ hrun => exact absurd hrun h.ne_processing
  | fails => exact .ended rfl
  | completes => exact .ended rfl

theorem Spent.idles (h : Spent most retries x) : x.Idles most := by
  cases h with
  | waiting hleft => exact Or.inr ⟨Or.inr rfl, hleft⟩
  | ended hended => exact Or.inl hended

theorem Idles.ne_processing (h : x.Idles most) : x.status ≠ .processing := by
  rcases h with hended | ⟨hnew | hpending, -⟩
  · exact ne_processing_of_isTerminal hended
  · simp [hnew]
  · simp [hpending]

theorem Idles.turns (h : e.standing.Idles most) (hturns : action.Turns p clock e e') :
    e'.standing.Idles most := by
  cases hturns with
  | keeps => exact h
  | sendsBack _ hrun => exact absurd hrun h.ne_processing
  | fails => exact Or.inl rfl
  | completes => exact Or.inl rfl

/-- An action that decides the run of an event, and is carried out, decides it. -/
theorem Turned.spent (h : Turned retries x) (hdecides : action.Decides most retries) :
    Spent most retries (action.stand x) := by
  cases h with
  | running =>
    cases action with
    | returnAfterError | giveBack => exact .waiting hdecides
    | markFailed | markCompleted => exact .ended rfl
    | narrate | append | sleep | pass => cases hdecides
  | waiting =>
    cases action with
    | returnAfterError | giveBack => exact .waiting hdecides
    | markFailed | markCompleted => exact .ended rfl
    | narrate | append | sleep | pass => cases hdecides
  | ended hended =>
    have hrun := ne_processing_of_isTerminal hended
    have hnot := Status.canBecome_eq_false_of_isTerminal hended
    refine .ended ?_
    cases action <;> simp [Action.stand, hrun, hnot, hended]

end Standing

/-! ## The last actions of a worker -/

section Closing

variable (p : Policy) (e : Event)

theorem exists_decides_retryActions (reason : Option String) :
    ∃ action ∈ retryActions p e reason, action.Decides p.maxRetries e.retries := by
  unfold retryActions
  split
  · exact ⟨.markFailed, by simp [logActions], trivial⟩
  · next hleft =>
    cases reason with
    | none => exact ⟨.giveBack, by simp, Int.not_le.1 hleft⟩
    | some reason => exact ⟨.returnAfterError, by simp [logActions], Int.not_le.1 hleft⟩

/-- However a handler ends, one of the last actions decides the run. -/
theorem exists_decides_closingActions (ending : Ending) :
    ∃ action ∈ closingActions p e ending, action.Decides p.maxRetries e.retries := by
  have hfatal : ∀ reason, ∃ action ∈ logActions e .fatal reason,
      action.Decides p.maxRetries e.retries :=
    fun reason => ⟨.markFailed, by simp [logActions], trivial⟩
  cases ending with
  | returned result =>
    cases result with
    | ok outcome =>
      cases outcome with
      | done => exact ⟨.markCompleted, List.mem_singleton_self _, trivial⟩
      | retry => exact exists_decides_retryActions p e none
      | fatal reason => exact hfatal reason
    | error cause => exact hfatal cause.message
  | panicked message => exact hfatal _

end Closing

/-- What the stored event of a worker looks like: its run is decided, or one of the last
actions is still to decide it. -/
def Worker.Spends (w : Worker) (most : Int) (e : Event) : Prop :=
  match w.stage with
  | .queued => e.standing.Turned w.event.retries
  | .opening _ => e.standing.Turned w.event.retries
  | .handling _ _ _ _ => e.standing.Turned w.event.retries
  | .closing todo =>
    e.standing.Spent most w.event.retries ∨
      e.standing.Turned w.event.retries ∧
        ∃ action ∈ todo, action.Decides most w.event.retries

theorem Worker.Spends.turns {w : Worker} {most : Int} {p : Policy} {clock : Instant}
    {action : Action} {e e' : Event} (h : w.Spends most e) (hturns : action.Turns p clock e e') :
    w.Spends most e' := by
  cases hstage : w.stage with
  | queued | opening | handling =>
    simp only [Spends, hstage] at h ⊢
    exact h.turns hturns
  | closing todo =>
    simp only [Spends, hstage] at h ⊢
    exact h.imp (fun hspent => hspent.turns hturns) fun hleft => ⟨hleft.1.turns hturns, hleft.2⟩

/-- The claims that an event is good for. -/
theorem Action.Turns.claimsLeft_le {p : Policy} {clock : Instant} {action : Action} {e e' : Event}
    (h : action.Turns p clock e e') (most : Int) : e'.claimsLeft most ≤ e.claimsLeft most := by
  cases h with
  | keeps => exact Nat.le_refl _
  | sendsBack _ hrun =>
    -- The retry that is spent was counted as the event was claimed.
    have hsame : most + 1 - (e.retries + 1) = most - e.retries := by omega
    simp [Event.claimsLeft, Event.sentBack, hrun, hsame]
  | fails => exact Nat.zero_le _
  | completes => exact Nat.zero_le _

namespace Core

variable {c c' : Core} {w : Worker} {stage : Stage} {store : Store}

/-- A step of a worker turns its own event only, and what it has to decide is decided or
left to its last actions. -/
theorem Progress.spends (h : c.Progress w stage store) (hids : c.store.DistinctIds)
    (hcloses : c.Closes w store) :
    ∃ f, c.store.Revises store w.event.id f ∧
      (∀ most e, (f e).claimsLeft most ≤ e.claimsLeft most) ∧
      ∀ e ∈ c.store.events, e.id = w.event.id → w.Spends c.settings.policy.maxRetries e →
        Worker.Spends { w with stage } c.settings.policy.maxRetries (f e) := by
  have hstays : ∀ stage', (∀ e, w.Spends c.settings.policy.maxRetries e →
      Worker.Spends { w with stage := stage' } c.settings.policy.maxRetries e) →
      ∃ f, c.store.Revises c.store w.event.id f ∧
        (∀ most e, (f e).claimsLeft most ≤ e.claimsLeft most) ∧
        ∀ e ∈ c.store.events, e.id = w.event.id → w.Spends c.settings.policy.maxRetries e →
          Worker.Spends { w with stage := stage' } c.settings.policy.maxRetries (f e) :=
    fun stage' hspends =>
      ⟨fun e => e, .refl _ _, fun _ e => Nat.le_refl _, fun e _ _ => hspends e⟩
  cases h with
  | admitted hstage | calls _ hstage | waits hstage =>
    refine hstays _ fun e hspends => ?_
    simp only [Worker.Spends, hstage] at hspends ⊢
    exact hspends
  | neverCalls hstage | timesOut hstage =>
    refine hstays _ fun e hspends => ?_
    simp only [Worker.Spends, hstage] at hspends ⊢
    exact Or.inr ⟨hspends, exists_decides_retryActions _ _ _⟩
  | returns hstage =>
    refine hstays _ fun e hspends => ?_
    simp only [Worker.Spends, hstage] at hspends ⊢
    exact Or.inr ⟨hspends, exists_decides_closingActions _ _ _⟩
  | opens hstage hacts | handles hstage _ hacts =>
    obtain ⟨f, hrevises, hturns⟩ := hacts.revises hids
    refine ⟨f, hrevises, fun most e => (hturns e).claimsLeft_le most, fun e _ _ hspends => ?_⟩
    simp only [Worker.Spends, hstage] at hspends ⊢
    exact hspends.turns (hturns e)
  | @closes action rest _ hstage hacts =>
    obtain ⟨f, hrevises, hturns⟩ := hacts.revises hids
    refine ⟨f, hrevises, fun most e => (hturns e).claimsLeft_le most, fun e he hid hspends => ?_⟩
    simp only [Worker.Spends, hstage] at hspends ⊢
    rcases hspends with hspent | ⟨hturned, decisive, hmem, hdecides⟩
    · exact Or.inl (hspent.turns (hturns e))
    · rcases List.mem_cons.1 hmem with rfl | hlater
      · have hmemStore : f e ∈ store.events := by
          rw [hrevises.events]
          exact List.mem_map_of_mem he
        rw [hcloses _ _ hstage e he (f e) hmemStore hid ((hrevises.same e).1.trans hid)]
        exact Or.inl (hturned.spent hdecides)
      · exact Or.inr ⟨hturned.turns (hturns e), decisive, hlater, hdecides⟩

/-- The event of each worker fits it, and every other event has ended or may be claimed. -/
structure Spending (c : Core) : Prop where
  ids : c.store.DistinctIds
  staffed : c.Staffed fun w => w.Spends c.settings.policy.maxRetries
  idle : ∀ e ∈ c.store.events, (∀ w ∈ c.workers, w.event.id ≠ e.id) →
    e.standing.Idles c.settings.policy.maxRetries

namespace Spending

/-- The clocks, the election, the lead and the paused classes do not matter. -/
theorem congr (h : c.Spending) (hsettings : c'.settings = c.settings)
    (hstore : c'.store = c.store) (hworkers : c'.workers = c.workers)
    (hstarted : c'.started = c.started) (hcandidates : c'.candidates = c.candidates) :
    c'.Spending := by
  obtain ⟨hids, ⟨hserials, hnumbered, hapart, hfitted, honce, hfree⟩, hidle⟩ := h
  refine ⟨?_, ⟨?_, ?_, ?_, ?_, ?_, ?_⟩, ?_⟩ <;>
    simpa only [hsettings, hstore, hworkers, hstarted, hcandidates]

/-- A call that changes no event may record one. -/
theorem record (h : c.Spending) (call : Store.Call) (hfresh : call.isFresh c.store = true)
    (hkept : ∀ e ∈ c.store.events, call.effectOn c.store e = e)
    (hbound : 0 ≤ c.settings.policy.maxRetries) :
    ({ c with store := c.store.after call } : Core).Spending := by
  refine ⟨h.ids.after hfresh, h.staffed.record h.ids call hkept, fun e he hnone => ?_⟩
  rcases (Store.mem_after h.ids).1 he with ⟨x, hx, rfl⟩ | hrecorded
  · rw [hkept x hx] at hnone ⊢
    exact h.idle x hx hnone
  · obtain ⟨id, now, request, -, rfl, -⟩ := Store.Call.eq_insert_of_mem_recorded hrecorded
    exact Or.inr ⟨Or.inl rfl, hbound⟩

/-- Without workers, what is listed at any time may be claimed. -/
theorem list (h : c.Spending) (hworkers : c.workers = []) (filter : DispatchFilter)
    (now : Instant) :
    ({ c with candidates := c.store.dispatchable filter now } : Core).Spending := by
  refine ⟨h.ids, ⟨h.staffed.serials, h.staffed.numbered, h.staffed.apart, h.staffed.fitted,
    Store.pairwise_id_dispatchable h.ids filter now, fun x hx => ?_⟩, h.idle⟩
  obtain ⟨hmem, hstatus⟩ := Store.mem_of_mem_dispatchable hx
  refine ⟨hmem, ?_, by simp [hworkers]⟩
  rcases hstatus with ⟨hpending, -⟩ | hnew
  · simp [hpending]
  · simp [hnew]

theorem passOver (h : c.Spending) {x : Event} {rest : List Event}
    (hcandidates : c.candidates = x :: rest) :
    ({ c with candidates := rest } : Core).Spending :=
  ⟨h.ids, h.staffed.passOver hcandidates, h.idle⟩

theorem claim (h : c.Spending) {x : Event} {rest : List Event} {entry : Entry} {store : Store}
    (hcandidates : c.candidates = x :: rest)
    (hclaim : c.store.claim? c.now x.id = some store) :
    ({ c with
      store
      workers := c.workers ++
        [.spawned c.started { x with status := .processing } entry.handler]
      started := c.started + 1
      candidates := rest } : Core).Spending := by
  have hstore := Store.eq_revise_of_claim? hclaim
  refine ⟨?_, h.staffed.claim hcandidates hclaim .running, fun e he hnone => ?_⟩
  · have hafter : store = c.store.after (.claim c.now x.id) := by simp [Store.after, hclaim]
    rw [hafter]
    exact h.ids.after rfl
  · rw [hstore] at he
    obtain ⟨y, hy, rfl⟩ := List.mem_map.1 he
    split at hnone
    · next hid => exact absurd hid.symm (hnone _ (List.mem_append_right _ List.mem_cons_self))
    · next hid =>
      rw [if_neg hid]
      exact h.idle y hy fun w hw => hnone w (List.mem_append_left _ hw)

theorem work (h : c.Spending) (hw : w ∈ c.workers) (hprogress : c.Progress w stage store)
    (hcloses : c.Closes w store) :
    ({ c with store, workers := c.workers.map (staged w stage) } : Core).Spending := by
  obtain ⟨f, hrevises, -, hspends⟩ := hprogress.spends h.ids hcloses
  refine ⟨hrevises.distinctIds h.ids,
    h.staffed.work hw hrevises hspends fun _ _ _ _ hkept => hkept, fun e' he' hnone => ?_⟩
  rw [hrevises.events] at he'
  obtain ⟨e, he, rfl⟩ := List.mem_map.1 he'
  have hidle : ∀ v ∈ c.workers, v.event.id ≠ e.id := by
    intro v hv
    rw [← (hrevises.same e).1, ← (h.staffed.staged_same hv hw stage).2]
    exact hnone _ (List.mem_map_of_mem hv)
  rw [hrevises.other e (Ne.symm (hidle w hw))]
  exact h.idle e he hidle

/-- The run of a worker that is done is decided. -/
theorem drop (h : c.Spending) (hw : w ∈ c.workers) (hstage : w.stage = .closing []) :
    ({ c with workers := c.workers.filter fun v => v.serial ≠ w.serial } : Core).Spending := by
  refine ⟨h.ids, h.staffed.drop _, fun e he hnone => ?_⟩
  by_cases hid : e.id = w.event.id
  · obtain ⟨x, hx, hxid, hspends⟩ := h.staffed.fitted w hw
    rw [h.ids.eq_of_id_eq he hx (hid.trans hxid.symm)]
    simp only [Worker.Spends, hstage, List.not_mem_nil, false_and, exists_false, and_false,
      or_false] at hspends
    exact hspends.idles
  · refine h.idle e he fun v hv hvid => hnone v ?_ hvid
    refine List.mem_filter.2 ⟨hv, ?_⟩
    have hother : v.serial ≠ w.serial := by
      intro hserial
      rw [h.staffed.eq_of_serial hv hw hserial] at hvid
      exact hid hvid.symm
    simpa using hother

/-- Whoever has a logger may use it. -/
theorem act (h : c.Spending) (hnothing : c.candidates = []) {p : Policy} {target : Event}
    {action : Action} (hacts : c.Acts p target action store) :
    ({ c with store } : Core).Spending := by
  obtain ⟨f, hrevises, hturns⟩ := hacts.revises h.ids
  have hmem : ∀ e ∈ c.store.events, f e ∈ store.events := by
    intro e he
    rw [hrevises.events]
    exact List.mem_map_of_mem he
  refine ⟨hrevises.distinctIds h.ids, ?_, fun e' he' hnone => ?_⟩
  · refine h.staffed.of_store hmem (fun e => (hrevises.same e).1)
      (fun w _ e _ _ hspends => hspends.turns (hturns e)) fun x hx => ?_
    rw [hnothing] at hx
    cases hx
  · rw [hrevises.events] at he'
    obtain ⟨e, he, rfl⟩ := List.mem_map.1 he'
    rw [(hrevises.same e).1] at hnone
    exact (h.idle e he hnone).turns (hturns e)

end Spending
end Core

/-- Going through what is listed keeps the invariant. -/
theorem Dispatcher.spending_startAll {d : Dispatcher} {listed : List Event}
    {paused : List EventClass} (h : (d.core listed paused).Spending) :
    ((d.startAll listed).2.core [] paused).Spending := by
  induction listed generalizing d with
  | nil => exact h
  | cons e rest ih =>
    refine ih (d := (d.startOne e).2) ?_
    rcases d.startOne_cases e with ⟨journal, hone⟩ | ⟨entry, store, journal, -, hclaim, hone⟩
    · rw [hone]
      exact h.passOver rfl
    · rw [hone]
      exact h.claim rfl hclaim

end EventDispatch
