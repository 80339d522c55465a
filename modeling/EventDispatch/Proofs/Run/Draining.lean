import EventDispatch.Proofs.Run.Exhaustion
import EventDispatch.Proofs.Run.Rounds

/-!
# The queue drains

**Input.** A service that leads and reaches its store.  Events of registered tags are
recorded in it, and then rounds are played, one after the other.

**Measure.** The claims that the events are good for.  At the start each is good for one
more than there are retries, and each round takes one off until none is left.

**Results.** `queue_drains`: every round can be played to its end.  After as many rounds
as the events were good for claims at the start, every event has ended, and from then on
no cycle starts anything.
-/

namespace EventDispatch
namespace Service

section Drain

variable {registry : Registry} {settings : Settings} {election : Election} {now : Instant}
  {s₀ s s' : Service} {k : Nat}

theorem Rested.congr (h : s.Rested) (hcore : s'.core = s.core)
    (haccess : s'.dispatcher.access = s.dispatcher.access) : s'.Rested where
  spending := hcore ▸ h.spending
  workers := (congrArg Core.workers hcore).trans h.workers
  candidates := (congrArg Core.candidates hcore).trans h.candidates
  access := haccess.trans h.access
  leads := by
    rw [show s'.dispatcher.election = s.dispatcher.election from congrArg Core.election hcore]
    exact h.leads
  served := by
    rw [show s'.dispatcher.store = s.dispatcher.store from congrArg Core.store hcore,
      show s'.dispatcher.registry = s.dispatcher.registry from congrArg Core.registry hcore]
    exact h.served

theorem Rested.recorded (h : s.Rested) (hbound : 0 ≤ s.dispatcher.settings.policy.maxRetries)
    {id : Uuid} {clock : Instant} {request : NewEvent}
    (hfresh : (Store.Call.insert id clock request).isFresh s.core.store = true)
    (hknown : s.dispatcher.registry.contains request.tag = true)
    (hcore : s'.core = { s.core with store := s.core.store.after (.insert id clock request) })
    (haccess : s'.dispatcher.access = s.dispatcher.access) : s'.Rested where
  spending := by
    rw [hcore]
    exact h.spending.record _ hfresh (fun _ _ => rfl) hbound
  workers := (congrArg Core.workers hcore).trans h.workers
  candidates := (congrArg Core.candidates hcore).trans h.candidates
  access := haccess.trans h.access
  leads := by
    rw [show s'.dispatcher.election = s.dispatcher.election from congrArg Core.election hcore]
    exact h.leads
  served e he := by
    rw [show s'.dispatcher.registry = s.dispatcher.registry from congrArg Core.registry hcore]
    rw [show s'.dispatcher.store = _ from congrArg Core.store hcore] at he
    rcases (Store.mem_after h.spending.ids).1 he with ⟨x, hx, rfl⟩ | hrecorded
    · exact h.served x hx
    · obtain ⟨_, _, _, hcall, rfl, -⟩ := Store.Call.eq_insert_of_mem_recorded hrecorded
      cases hcall
      exact hknown

/-- The service is filled with new events of registered tags. -/
theorem rested_of_filled (hbound : 0 ≤ settings.policy.maxRetries)
    (hleads : election.answer = .ok true)
    (h : Reaches isFilling
      (.ofDispatcher (.initial registry settings .unhindered election now)) s) :
    s.Rested ∧ s.dispatcher.settings = settings ∧
      ∀ e ∈ s.dispatcher.store.events, e.status = .new ∧ e.retries = 0 := by
  refine h.induct (P := fun s => s.Rested ∧ s.dispatcher.settings = settings ∧
    ∀ e ∈ s.dispatcher.store.events, e.status = .new ∧ e.retries = 0) ?_ ?_
  · refine ⟨⟨⟨List.Pairwise.nil, .of_no_workers rfl rfl, ?_⟩, rfl, rfl, rfl, hleads, ?_⟩, rfl, ?_⟩
    all_goals
      intro e he
      cases he
  · rintro s m s' ⟨hrested, rfl, hnew⟩ hm hafter
    obtain ⟨hfresh, hallowed⟩ := Bool.and_eq_true_iff.1 hm
    cases m with
    | register tag owner deadline payload =>
      have haccess := (calls_of_after? hafter nofun nofun).1
      cases hafter
      rcases s.core_registerEvent tag owner deadline payload with hsame | ⟨value, -, hcore⟩
      · have hstore : (s.registerEvent tag owner deadline payload).2.dispatcher.store =
            s.dispatcher.store := congrArg Core.store hsame
        refine ⟨hrested.congr hsame haccess, congrArg Core.settings hsame, ?_⟩
        rw [hstore]
        exact hnew
      · refine ⟨hrested.recorded hbound hfresh hallowed hcore haccess,
          congrArg Core.settings hcore, fun e he => ?_⟩
        rw [show (s.registerEvent tag owner deadline payload).2.dispatcher.store = _ from
          congrArg Core.store hcore] at he
        rcases (Store.mem_after hrested.spending.ids).1 he with ⟨x, hx, rfl⟩ | hrecorded
        · exact hnew x hx
        · obtain ⟨_, _, _, -, rfl, -⟩ := Store.Call.eq_insert_of_mem_recorded hrecorded
          exact ⟨rfl, rfl⟩
    | elapse | setClock =>
      cases hafter
      exact ⟨⟨hrested.spending.congr rfl rfl rfl rfl rfl, hrested.workers, hrested.candidates,
        hrested.access, hrested.leads, hrested.served⟩, rfl, hnew⟩
    | _ => cases hallowed

theorem claimsLeft_of_new {store : Store} {most : Int} (hbound : 0 ≤ most)
    (hnew : ∀ e ∈ store.events, e.status = .new ∧ e.retries = 0) :
    store.claimsLeft most = store.events.length * (most.toNat + 1) := by
  have hone : ∀ e ∈ store.events, e.claimsLeft most = most.toNat + 1 := by
    intro e he
    obtain ⟨hstatus, hretries⟩ := hnew e he
    simp only [Event.claimsLeft, hstatus, hretries]
    omega
  unfold Store.claimsLeft
  rw [List.map_congr_left hone, List.map_const', List.sum_replicate_nat]

/-- A rested service whose events are good for no claim has come to its end. -/
theorem Rested.claimsLeft_eq_zero_iff (h : s.Rested) :
    s.dispatcher.store.claimsLeft s.dispatcher.settings.policy.maxRetries = 0 ↔
      ∀ e ∈ s.dispatcher.store.events, e.status.isTerminal = true := by
  unfold Store.claimsLeft
  rw [List.sum_eq_zero_iff]
  constructor
  · intro hzero e he
    have hnone := hzero _ (List.mem_map_of_mem he)
    rcases h.idles he with hended | ⟨hready, hbound⟩
    · exact hended
    · change e.retries ≤ _ at hbound
      rcases hready with hstatus | hstatus
      · simp only [Event.claimsLeft, show e.status = .new from hstatus] at hnone
        omega
      · simp only [Event.claimsLeft, show e.status = .pending from hstatus] at hnone
        omega
  · intro hended n hn
    obtain ⟨e, he, rfl⟩ := List.mem_map.1 hn
    have hterminal := hended e he
    cases hstatus : e.status with
    | new | processing | pending => simp [hstatus, Status.isTerminal] at hterminal
    | completed | failed => simp [Event.claimsLeft, hstatus]

/-- Each round takes a claim off, until none is left. -/
theorem rested_of_rounds (hrested : s₀.Rested) (h : Rounds s₀ k s) :
    s.Rested ∧ Worked s₀ s ∧
      (s.dispatcher.store.claimsLeft s₀.dispatcher.settings.policy.maxRetries + k ≤
          s₀.dispatcher.store.claimsLeft s₀.dispatcher.settings.policy.maxRetries ∨
        s.dispatcher.store.claimsLeft s₀.dispatcher.settings.policy.maxRetries = 0) := by
  induction h with
  | none =>
    exact ⟨hrested, .of_reaches hrested.spending hrested.candidates hrested.access .refl,
      Or.inl (Nat.le_refl _)⟩
  | @round k s s' now _ hround ih =>
    obtain ⟨hrested', hworked, hleft⟩ := ih
    obtain ⟨hround', hrested''⟩ := hrested'.round hround
    refine ⟨hrested'', hworked.trans hround', ?_⟩
    have hless := hround'.wanes.claimsLeft_le s₀.dispatcher.settings.policy.maxRetries
    by_cases hended : ∀ e ∈ s.dispatcher.store.events, e.status.isTerminal = true
    · have hzero := hrested'.claimsLeft_eq_zero_iff.2 hended
      rw [hworked.settings] at hzero
      omega
    · obtain ⟨e, he, hstill⟩ : ∃ e ∈ s.dispatcher.store.events, ¬ e.status.isTerminal = true := by
        simpa using hended
      have hlt := hrested'.claimsLeft_lt hround he hstill
      rw [hworked.settings] at hlt
      omega

/-- In a service that leads and has been filled with events of registered tags, every
round can be played to its end, whatever the handlers do.  After as many rounds as the
policy allows runs for all events together, every event has completed or failed, and a
cycle starts no worker. -/
theorem queue_drains (hbound : 0 ≤ settings.policy.maxRetries) (hleads : election.answer = .ok true)
    (hfilled : Reaches isFilling
      (.ofDispatcher (.initial registry settings .unhindered election now)) s₀)
    (hrounds : Rounds s₀ k s) :
    s.dispatcher.store.events.map Event.id = s₀.dispatcher.store.events.map Event.id ∧
    (∀ now, s.isDue now = true → ∃ s', Round now s s') ∧
    (s₀.dispatcher.store.events.length * (settings.policy.maxRetries.toNat + 1) ≤ k →
      (∀ e ∈ s.dispatcher.store.events, e.status = .completed ∨ e.status = .failed) ∧
      ∀ now, (s.dispatcher.cycle [] now).1 = .ok 0 ∧
        (s.dispatcher.cycle [] now).2.workers = [] ∧
        (s.dispatcher.cycle [] now).2.started = s.dispatcher.started) := by
  obtain ⟨hrested₀, rfl, hnew⟩ := rested_of_filled hbound hleads hfilled
  obtain ⟨hrested, hworked, hleft⟩ := rested_of_rounds hrested₀ hrounds
  refine ⟨hworked.wanes.ids, fun now hdue => hrested.exists_round hdue, fun hlong => ?_⟩
  rw [claimsLeft_of_new hbound hnew] at hleft
  have hzero : s.dispatcher.store.claimsLeft s.dispatcher.settings.policy.maxRetries = 0 := by
    rw [hworked.settings]
    omega
  have hended := hrested.claimsLeft_eq_zero_iff.1 hzero
  refine ⟨fun e he => ?_, hrested.cycle_of_ended hended⟩
  have hterminal := hended e he
  cases hstatus : e.status with
  | completed => exact Or.inl rfl
  | failed => exact Or.inr rfl
  | new | processing | pending => simp [hstatus, Status.isTerminal] at hterminal

end Drain

/-- Plays rounds one after the other, as long as every pending event is due and the
workers end. -/
def rounds? : Service → List (Instant × List Move) → Option Service
  | s, [] => some s
  | s, (now, moves) :: rest =>
    if s.isDue now then
      (follow? isAtWork { s with dispatcher := (s.dispatcher.cycle [] now).2 } moves).bind
        fun s' => if s'.dispatcher.workers.isEmpty then rounds? s' rest else none
    else none

theorem Rounds.rounds? {s₀ s s' : Service} {k : Nat} {plan : List (Instant × List Move)}
    (h : Rounds s₀ k s) (hplan : s.rounds? plan = some s') :
    Rounds s₀ (k + plan.length) s' := by
  induction plan generalizing k s with
  | nil =>
    cases hplan
    exact h
  | cons round rest ih =>
    obtain ⟨now, moves⟩ := round
    simp only [Service.rounds?] at hplan
    split at hplan
    · next hdue =>
      obtain ⟨t, hmoves, hrest⟩ := Option.bind_eq_some_iff.1 hplan
      split at hrest
      · next hdone =>
        have hround : Round now s t := ⟨hdue, Reaches.refl.follow? hmoves, by simpa using hdone⟩
        have hrounds := ih (h.round hround) hrest
        rwa [List.length_cons, Nat.add_comm rest.length, ← Nat.add_assoc]
      · cases hrest
    · cases hplan

/-- Two events of one key are recorded. -/
def laneFilling : List Move :=
  List.replicate 2 (.register "a:r" "o" (.ofSeconds 300) (.ok .null))

/-- Each event is run twice, the second one only once the first has failed. -/
def stubbornRounds : List (Instant × List Move) :=
  [(.epoch, List.replicate 10 (.work 0)),
    (Instant.epoch.shift 1000000000000, List.replicate 12 (.work 1)),
    (Instant.epoch.shift 1000000000000, List.replicate 10 (.work 2)),
    (Instant.epoch.shift 1000000000000, List.replicate 12 (.work 3))]

/-- Two events and one retry allow for four rounds, and handlers that always fail need
them all. -/
theorem queue_drains_of_stubbornRounds :
    (0 : Int) ≤ 1 ∧ Election.always.answer = .ok true ∧
    ∃ s₀ s, Reaches isFilling (stubbornStart ⟨.ofSeconds 180, 1⟩) s₀ ∧ Rounds s₀ 4 s ∧
      s₀.dispatcher.store.events.length * ((1 : Int).toNat + 1) ≤ 4 ∧
      s.dispatcher.started = 4 ∧
      s.dispatcher.store.events.map Event.id = s₀.dispatcher.store.events.map Event.id ∧
      (∀ e ∈ s.dispatcher.store.events, e.status = .completed ∨ e.status = .failed) ∧
      ∀ now, (s.dispatcher.cycle [] now).1 = .ok 0 ∧
        (s.dispatcher.cycle [] now).2.workers = [] ∧
        (s.dispatcher.cycle [] now).2.started = s.dispatcher.started := by
  have hfill : ((stubbornStart ⟨.ofSeconds 180, 1⟩).follow? isFilling laneFilling).map
      (fun s₀ => (s₀.dispatcher.store.events.length,
        (s₀.rounds? stubbornRounds).map fun s => s.dispatcher.started)) = some (2, some 4) := by
    cbv
  obtain ⟨s₀, hs₀, hview⟩ := Option.map_eq_some_iff.1 hfill
  obtain ⟨hcount, hplan⟩ := Prod.mk.inj hview
  obtain ⟨s, hs, hstarted⟩ := Option.map_eq_some_iff.1 hplan
  have hfilled : Reaches isFilling (stubbornStart ⟨.ofSeconds 180, 1⟩) s₀ :=
    Reaches.refl.follow? hs₀
  have hrounds : Rounds s₀ 4 s := Rounds.none.rounds? hs
  have hlong : s₀.dispatcher.store.events.length * ((1 : Int).toNat + 1) ≤ 4 := by
    rw [hcount]
    decide
  obtain ⟨hids, -, hdrained⟩ := queue_drains (by decide) rfl hfilled hrounds
  exact ⟨by decide, rfl, s₀, s, hfilled, hrounds, hlong, hstarted, hids, hdrained hlong⟩

end Service
end EventDispatch
