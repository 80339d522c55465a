import EventDispatch.Proofs.Run.Lanes
import EventDispatch.Proofs.Run.Stages
import EventDispatch.Proofs.Store.Backoff

/-!
# How long events have waited

**Input.** A run in which every retry is given the grace of the settings, which is not
negative, and the clock stays between two instants.

**Invariant.** An event is claimed again only once it has waited, so that it waited no
longer than the time between the two instants.  Each stored event is on the schedule
of its first deadline, and the wait before its last retry has passed
(`Event.Paced`).  A cycle goes through events that have not been claimed since they
were listed, so the wait of each is that of the listing.

**Results.** Every move keeps this (`Paced.step`), whatever the handlers, the election
and the store do, and whoever resets events.
-/

namespace EventDispatch

theorem Instant.least_le_greatest : least ≤ greatest := by decide

/-- The first nanosecond of the year -9999. -/
def Instant.first : Instant := ⟨least, Int.le_refl least, least_le_greatest⟩

/-- The last nanosecond of the year 9999. -/
def Instant.last : Instant := ⟨greatest, least_le_greatest, Int.le_refl greatest⟩

/-- How long an event recorded with this deadline has to wait after so many retries. -/
def backoff (grace first : Duration) (retries : Int) : Int :=
  min Duration.greatest (first.nanos + retries * grace.nanos) * retries

theorem Event.Scheduled.delay_eq {grace : Duration} {first e : Event}
    (h : Scheduled grace first e) : e.delay = backoff grace first.deadline e.retries := by
  rw [delay, backoff, h.deadline]

/-- What is awaited after one more retry, by what has passed before it. -/
theorem backoff_succ_le {grace first : Duration} {retries span : Int} (hgrace : 0 ≤ grace.nanos)
    (hfirst : 0 < first.nanos) (hretried : 0 ≤ retries) (hspan : span < Duration.greatest)
    (hpassed : backoff grace first retries ≤ span) :
    backoff grace first (retries + 1) ≤ max (4 * span) (first.nanos + grace.nanos) := by
  rcases Int.lt_or_eq_of_le hretried with hsome | rfl
  · refine Int.le_trans ?_ (Int.le_max_left _ _)
    have hsteps : 0 ≤ retries * grace.nanos := Int.mul_nonneg hretried hgrace
    generalize hd : min Duration.greatest (first.nanos + retries * grace.nanos) = d at hpassed
    rw [backoff, hd] at hpassed
    have hpositive : 0 < d := by
      simp only [Duration.greatest] at hd
      omega
    -- A wait that has passed is far from the longest duration, so nothing was cut off.
    have honce : d * 1 ≤ d * retries :=
      Int.mul_le_mul_of_nonneg_left hsome (Int.le_of_lt hpositive)
    have hexact : d = first.nanos + retries * grace.nanos := by omega
    have hstep : 1 * grace.nanos ≤ retries * grace.nanos :=
      Int.mul_le_mul_of_nonneg_right hsome hgrace
    have hnext : min Duration.greatest (first.nanos + (retries + 1) * grace.nanos) ≤
        d + grace.nanos := by
      rw [Int.add_mul]
      omega
    calc backoff grace first (retries + 1) ≤ (d + grace.nanos) * (retries + 1) :=
          Int.mul_le_mul_of_nonneg_right hnext (by omega)
      _ = d * retries + d + retries * grace.nanos + grace.nanos := by
          rw [Int.add_mul, Int.mul_add, Int.mul_add, Int.mul_comm grace.nanos retries]
          omega
      _ ≤ 4 * span := by omega
  · refine Int.le_trans ?_ (Int.le_max_right _ _)
    simp only [backoff, Int.zero_add, Int.one_mul, Int.mul_one]
    exact Int.min_le_right _ _

/-! ## One event -/

/-- The time of the clock at which a call is made, if it reads the clock. -/
def Store.Call.clock? : Store.Call → Option Instant
  | .insert _ now _ => some now
  | .claim clock _ => some clock
  | .setStatus clock _ _ => some clock
  | .retry clock _ _ => some clock
  | .append _ => none
  | .resetProcessing clock => some clock
  | .resetStale clock _ => some clock

namespace Event

/-- An event that is not being run is not sent back. -/
theorem delay_effectOn {e : Event} (he : e.status ≠ .processing)
    (s : Store) (call : Store.Call) : (call.effectOn s e).delay = e.delay := by
  cases call <;> simp only [Store.Call.effectOn, he, and_false, false_and, if_false] <;>
    split <;> rfl

/-- The event, recorded as `first`, was changed between two instants only, and claimed only
once it had waited. -/
structure Paced (grace : Duration) (start stop : Instant) (first e : Event) : Prop where
  scheduled : Scheduled grace first e
  positive : 0 < first.deadline.nanos
  bounded : first.deadline.nanos ≤ longestDeadline.nanos
  unclaimed : e.status = .new → e.retries = 0
  notBefore : start ≤ e.updated
  notAfter : e.updated ≤ stop
  passed : 0 < e.retries →
    backoff grace first.deadline (e.retries - 1) ≤ stop.nanos - start.nanos
  running : e.status = .processing → e.delay ≤ stop.nanos - start.nanos

section Paced

variable {grace : Duration} {start stop clock : Instant} {first e : Event}

theorem paced_of_mem_recorded {call : Store.Call} (he : e ∈ call.recorded)
    (hclock : call.clock?.all (· = clock) = true) (hstart : start ≤ clock) (hstop : clock ≤ stop) :
    Paced grace start stop e e := by
  have hpositive := Store.Call.deadline_pos_of_mem_recorded he
  obtain ⟨id, now, request, rfl, rfl, hvalid⟩ := Store.Call.eq_insert_of_mem_recorded he
  have hnow : now = clock := by simpa [Store.Call.clock?] using hclock
  subst hnow
  have hbounded : request.deadline.nanos ≤ longestDeadline.nanos := by
    unfold NewEvent.validate at hvalid
    split at hvalid
    · cases hvalid
    · split at hvalid
      · cases hvalid
      · split at hvalid
        · cases hvalid
        · omega
  refine ⟨⟨rfl, Int.le_refl 0, ?_⟩, hpositive, hbounded, fun _ => rfl, hstart, hstop, ?_, ?_⟩
  · have hupper := request.deadline.upper
    simp [NewEvent.recorded, Int.min_eq_right hupper]
  · exact fun hmore => absurd hmore (Int.lt_irrefl 0)
  · intro hstatus
    cases hstatus

/-- The event at another status, without a retry. -/
theorem Paced.restatus (h : Paced grace start stop first e) (hstart : start ≤ clock)
    (hstop : clock ≤ stop) {status : Status} (hleft : status ≠ .new)
    (hrunning : status = .processing → e.delay ≤ stop.nanos - start.nanos) :
    Paced grace start stop first { e with status := status, updated := clock } where
  scheduled := h.scheduled.congr rfl rfl rfl
  positive := h.positive
  bounded := h.bounded
  unclaimed hnew := absurd hnew hleft
  notBefore := hstart
  notAfter := hstop
  passed := h.passed
  running := hrunning

/-- The event is sent back, and what it waited before is what has passed since. -/
theorem Paced.sentBack (h : Paced grace start stop first e) (hgrace : 0 ≤ grace.nanos)
    (hstart : start ≤ clock) (hstop : clock ≤ stop) (hrun : e.status = .processing) :
    Paced grace start stop first (e.sentBack clock grace) where
  scheduled := h.scheduled.retry hgrace h.positive rfl rfl rfl
  positive := h.positive
  bounded := h.bounded
  unclaimed hnew := nomatch hnew
  notBefore := hstart
  notAfter := hstop
  passed _ := by
    have hwaited := h.running hrun
    rw [h.scheduled.delay_eq] at hwaited
    simpa [Event.sentBack] using hwaited
  running hstatus := nomatch hstatus

/-- A call keeps the pace, if it claims only what has waited. -/
theorem Paced.effectOn (h : Paced grace start stop first e) (hgrace : 0 ≤ grace.nanos)
    (hstart : start ≤ clock) (hstop : clock ≤ stop) (s : Store) {call : Store.Call}
    (hends : call.endsOnly = true) (hclock : call.clock?.all (· = clock) = true)
    (hextends : ∀ clock id extension, call = .retry clock id extension → extension = grace)
    (hwaited : ∀ clock, call = .claim clock e.id → e.delay ≤ stop.nanos - start.nanos) :
    Paced grace start stop first (call.effectOn s e) := by
  cases call with
  | insert | append => exact h
  | claim time id =>
    have htime : time = clock := by simpa [Store.Call.clock?] using hclock
    subst htime
    simp only [Store.Call.effectOn]
    split
    · next hgranted =>
      have hid : e.id = id := hgranted.1
      subst hid
      exact h.restatus hstart hstop (by decide) fun _ => hwaited time rfl
    · exact h
  | setStatus time id status =>
    have htime : time = clock := by simpa [Store.Call.clock?] using hclock
    subst htime
    simp only [Store.Call.effectOn]
    split
    · refine h.restatus hstart hstop ?_ ?_
      all_goals
        rintro rfl
        cases hends
    · exact h
  | retry time id extension =>
    have htime : time = clock := by simpa [Store.Call.clock?] using hclock
    have hextension : extension = grace := hextends time id extension rfl
    subst htime hextension
    simp only [Store.Call.effectOn]
    split
    · next hgranted => exact h.sentBack hgrace hstart hstop hgranted.2
    · exact h
  | resetProcessing time | resetStale time now =>
    have htime : time = clock := by simpa [Store.Call.clock?] using hclock
    subst htime
    simp only [Store.Call.effectOn]
    split
    · refine h.restatus hstart hstop (by decide) fun hstatus => ?_
      cases hstatus
    · exact h

/-- What is overdue has waited. -/
theorem Paced.delay_le_of_isOverdue (h : Paced grace start stop first e) {now : Instant}
    (hoverdue : e.isOverdue now = true) (hnow : now ≤ stop) :
    e.delay ≤ stop.nanos - start.nanos := by
  obtain ⟨due, hdue, hpast⟩ : ∃ due, e.dueAt? = some due ∧ due < now := by
    simpa [isOverdue, EventDispatch.isOverdue, Option.any_eq_true, dueAt?] using hoverdue
  have hnanos := nanos_of_dueAt? hdue
  rw [Int.toNat_of_nonneg h.scheduled.retried] at hnanos
  have hstart := Instant.le_iff.1 h.notBefore
  rw [Instant.lt_iff] at hpast
  rw [Instant.le_iff] at hnow
  unfold delay
  omega

/-- No event ever has to wait longer than this. -/
theorem Paced.delay_le (h : Paced grace start stop first e) (hgrace : 0 ≤ grace.nanos) :
    e.delay ≤ max (4 * (stop.nanos - start.nanos)) (longestDeadline.nanos + grace.nanos) := by
  have hbounded := h.bounded
  rw [h.scheduled.delay_eq]
  rcases Int.lt_or_eq_of_le h.scheduled.retried with hsome | hnone
  · have hspan : stop.nanos - start.nanos < Duration.greatest := by
      have hupper := stop.upper
      have hlower := start.lower
      simp only [Duration.greatest, Instant.greatest, Instant.least] at *
      omega
    have hretried : 0 ≤ e.retries - 1 := by omega
    have hsucc := backoff_succ_le hgrace h.positive hretried hspan (h.passed hsome)
    rw [Int.sub_add_cancel] at hsucc
    omega
  · have hlongest : 0 ≤ longestDeadline.nanos := by decide
    rw [← hnone, backoff, Int.mul_zero]
    omega

end Paced
end Event

/-! ## All events of a run -/

namespace Core

variable {c c' : Core} {m : Move}

/-- What a call that a move makes is like. -/
structure Makes (c : Core) (call : Store.Call) : Prop where
  fresh : call.isFresh c.store = true
  ends : call.endsOnly = true
  clock : call.clock?.all (· = c.now) = true
  extension : ∀ clock id extension, call = .retry clock id extension →
    extension = c.settings.policy.grace

/-- The stores that a move leads to which claims nothing. -/
def Leaves (c : Core) (store : Store) : Prop :=
  store = c.store ∨
    ∃ call : Store.Call, c.Makes call ∧ (∀ clock id, call ≠ .claim clock id) ∧
      store = c.store.after call

theorem Acts.leaves {p : Policy} {e : Event} {action : Action} {store : Store}
    (h : c.Acts p e action store) (hgrace : p.grace = c.settings.policy.grace) :
    c.Leaves store := by
  rcases h with hsame | ⟨row, call, hcall, hstore⟩
  · exact Or.inl hsame
  · refine Or.inr ⟨call, ?_, ?_, hstore⟩
    · rcases Action.call?_cases hcall with ⟨written, rfl⟩ | rfl | rfl | rfl
      · exact ⟨rfl, rfl, rfl, fun _ _ _ h => nomatch h⟩
      · refine ⟨rfl, rfl, by simp [Store.Call.clock?], fun _ _ _ heq => ?_⟩
        cases heq
        exact hgrace
      all_goals exact ⟨rfl, rfl, by simp [Store.Call.clock?], fun _ _ _ h => nomatch h⟩
    · rcases Action.call?_cases hcall with ⟨written, rfl⟩ | rfl | rfl | rfl
      all_goals exact fun _ _ h => nomatch h

theorem Progress.leaves {w : Worker} {stage : Stage} {store : Store}
    (h : c.Progress w stage store) : c.Leaves store := by
  cases h with
  | opens _ hacts | handles _ _ hacts | closes _ hacts => exact hacts.leaves rfl
  | admitted | calls | neverCalls | timesOut | waits | returns => exact Or.inl rfl

/-- A call with the time of the clock that neither claims an event nor sends one back. -/
theorem leaves_after {call : Store.Call} (hfresh : call.isFresh c.store = true)
    (hends : call.endsOnly = true) (hclock : call.clock?.all (· = c.now) = true)
    (hretry : ∀ clock id extension, call ≠ .retry clock id extension)
    (hclaim : ∀ clock id, call ≠ .claim clock id) : c.Leaves (c.store.after call) := by
  refine Or.inr ⟨call, ⟨hfresh, hends, hclock, ?_⟩, hclaim, rfl⟩
  exact fun clock id extension heq => absurd heq (hretry clock id extension)

theorem leaves_insert {id : Uuid} {request : NewEvent}
    (hfresh : (Store.Call.insert id c.now request).isFresh c.store = true) :
    c.Leaves (c.store.after (.insert id c.now request)) :=
  leaves_after hfresh rfl (by simp [Store.Call.clock?]) (by simp) (by simp)

theorem leaves_resetStale (c : Core) : c.Leaves (c.store.after (.resetStale c.now c.now)) :=
  leaves_after rfl rfl (by simp [Store.Call.clock?]) (by simp) (by simp)

theorem leaves_lead (c : Core) : c.Leaves c.lead.store := by
  unfold lead
  split
  · exact Or.inl rfl
  · change c.Leaves (c.store.after (.resetProcessing c.now))
    exact leaves_after rfl rfl (by simp [Store.Call.clock?]) (by simp) (by simp)

theorem Step.now_eq (h : c.Step m c') (helapse : ∀ milliseconds, m ≠ .elapse milliseconds)
    (hset : ∀ now, m ≠ .setClock now) : c'.now = c.now := by
  cases h with
  | elapsed milliseconds => exact absurd rfl (helapse milliseconds)
  | clockSet now => exact absurd rfl (hset now)
  | opened => exact c.now_lead
  | _ => rfl

/-- The clock stays between two instants, and events are claimed only once they have
waited. -/
structure Paced (grace : Duration) (start stop : Instant) (c : Core) : Prop where
  policy : c.settings.policy.grace = grace
  notBefore : start ≤ c.now
  notAfter : c.now ≤ stop
  ids : c.store.DistinctIds
  paced : ∀ e ∈ c.store.events, ∃ first, Event.Paced grace start stop first e
  listed : ∀ x ∈ c.candidates, ∃ e ∈ c.store.events, e.id = x.id ∧ e.status ≠ .processing ∧
    e.delay ≤ stop.nanos - start.nanos
  once : c.candidates.Pairwise fun x y => x.id ≠ y.id

namespace Paced

variable {grace : Duration} {start stop : Instant}

theorem keep (h : c.Paced grace start stop) (hstore : c'.store = c.store)
    (hsettings : c'.settings = c.settings) (hnotBefore : start ≤ c'.now)
    (hnotAfter : c'.now ≤ stop) (hcandidates : c'.candidates.Sublist c.candidates) :
    c'.Paced grace start stop where
  policy := hsettings ▸ h.policy
  notBefore := hnotBefore
  notAfter := hnotAfter
  ids := hstore ▸ h.ids
  paced := hstore ▸ h.paced
  listed x hx := hstore ▸ h.listed x (hcandidates.subset hx)
  once := h.once.sublist hcandidates

/-- Whatever a cycle is about to claim has waited. -/
theorem waited (h : c.Paced grace start stop) {e : Event} (he : e ∈ c.store.events)
    (hlists : c.Lists e.id) : e.delay ≤ stop.nanos - start.nanos := by
  obtain ⟨x, hx, hid⟩ := hlists
  obtain ⟨e', he', hid', -, hwaited⟩ := h.listed x hx
  rw [← h.ids.eq_of_id_eq he' he (hid'.trans hid)]
  exact hwaited

theorem call (h : c.Paced grace start stop) (hgrace : 0 ≤ grace.nanos) {call : Store.Call}
    (hmakes : c.Makes call) (hstore : c'.store = c.store.after call)
    (hsettings : c'.settings = c.settings) (hnow : c'.now = c.now)
    (hcandidates : c'.candidates.Sublist c.candidates)
    (hclaim : ∀ clock id, call = .claim clock id →
      c.Lists id ∧ ∀ x ∈ c'.candidates, x.id ≠ id) :
    c'.Paced grace start stop where
  policy := hsettings ▸ h.policy
  notBefore := hnow ▸ h.notBefore
  notAfter := hnow ▸ h.notAfter
  ids := hstore ▸ h.ids.after hmakes.fresh
  paced e he := by
    rw [hstore, Store.mem_after h.ids] at he
    rcases he with ⟨x, hx, rfl⟩ | hrecorded
    · obtain ⟨first, hpaced⟩ := h.paced x hx
      refine ⟨first, hpaced.effectOn hgrace h.notBefore h.notAfter _ hmakes.ends hmakes.clock ?_
        fun clock heq => h.waited hx (hclaim clock x.id heq).1⟩
      exact fun clock id extension heq => (hmakes.extension clock id extension heq).trans h.policy
    · exact ⟨e, Event.paced_of_mem_recorded hrecorded hmakes.clock h.notBefore h.notAfter⟩
  listed x hx := by
    obtain ⟨e, he, hid, hidle, hwaited⟩ := h.listed x (hcandidates.subset hx)
    refine ⟨call.effectOn c.store e, ?_, (Store.id_effectOn _ _ _).trans hid, fun hrun => ?_, ?_⟩
    · rw [hstore, Store.mem_after h.ids]
      exact Or.inl ⟨e, he, rfl⟩
    · rcases Store.processing_of_effectOn hrun with hbefore | ⟨⟨clock, rfl⟩, -⟩ | ⟨clock, rfl⟩
      · exact hidle hbefore
      · exact (hclaim clock e.id rfl).2 x hx hid.symm
      · exact nomatch hmakes.ends
    · rw [Event.delay_effectOn hidle]
      exact hwaited
  once := h.once.sublist hcandidates

/-- What is listed has waited by then. -/
theorem list (h : c.Paced grace start stop) {candidates : List Event} (filter : DispatchFilter)
    (hlist : candidates = [] ∨ candidates = c.store.dispatchable filter c.now) :
    ({ c with candidates } : Core).Paced grace start stop := by
  refine ⟨h.policy, h.notBefore, h.notAfter, h.ids, h.paced, fun x hx => ?_, ?_⟩
  · rcases hlist with rfl | rfl
    · cases hx
    · obtain ⟨hmem, hready⟩ := Store.mem_of_mem_dispatchable hx
      obtain ⟨first, hpaced⟩ := h.paced x hmem
      refine ⟨x, hmem, rfl, ?_, ?_⟩
      · rcases hready with ⟨hpending, -⟩ | hnew
        · rw [hpending]
          decide
        · rw [hnew]
          decide
      · rcases hready with ⟨-, hoverdue⟩ | hnew
        · exact hpaced.delay_le_of_isOverdue hoverdue h.notAfter
        · have hspan := Int.sub_nonneg_of_le (Int.le_trans h.notBefore h.notAfter)
          rw [Event.delay, hpaced.unclaimed hnew, Int.mul_zero]
          exact hspan
  · rcases hlist with rfl | rfl
    · exact List.Pairwise.nil
    · exact Store.pairwise_id_dispatchable h.ids filter c.now

theorem leave (h : c.Paced grace start stop) (hgrace : 0 ≤ grace.nanos)
    (hleaves : c.Leaves c'.store) (hsettings : c'.settings = c.settings) (hnow : c'.now = c.now)
    (hcandidates : c'.candidates.Sublist c.candidates) : c'.Paced grace start stop := by
  rcases hleaves with hsame | ⟨call, hmakes, hnone, hstore⟩
  · exact h.keep hsame hsettings (hnow ▸ h.notBefore) (hnow ▸ h.notAfter) hcandidates
  · exact h.call hgrace hmakes hstore hsettings hnow hcandidates
      fun clock id heq => absurd heq (hnone clock id)

theorem lead (h : c.Paced grace start stop) (hgrace : 0 ≤ grace.nanos) :
    c.lead.Paced grace start stop := by
  refine h.leave hgrace c.leaves_lead ?_ c.now_lead (by rw [c.candidates_lead])
  unfold Core.lead
  split <;> rfl

/-- Every move keeps the pace, if it keeps the clock between the two instants. -/
theorem step (h : c.Paced grace start stop) (hgrace : 0 ≤ grace.nanos) (hstep : c.Step m c')
    (hact : ∀ p e action, m = .act p e action → p.grace = c.settings.policy.grace)
    (hnotBefore : start ≤ c'.now) (hnotAfter : c'.now ≤ stop) : c'.Paced grace start stop := by
  cases hstep with
  | keep | repaused | elected | leadLost | ended | elapsed | clockSet =>
    exact h.keep rfl rfl hnotBefore hnotAfter (List.Sublist.refl _)
  | recorded tag owner deadline payload id hfresh =>
    exact h.leave hgrace (leaves_insert hfresh) rfl rfl (List.Sublist.refl _)
  | acted hacts =>
    exact h.leave hgrace (hacts.leaves (hact _ _ _ rfl)) rfl rfl (List.Sublist.refl _)
  | staleReset => exact h.leave hgrace c.leaves_resetStale rfl rfl (List.Sublist.refl _)
  | opened _ _ hlist => exact (h.lead hgrace).list _ (by simpa using hlist)
  | passedOver hcandidates =>
    exact h.keep rfl rfl hnotBefore hnotAfter (hcandidates ▸ List.sublist_cons_self _ _)
  | @claimed e rest _ _ hcandidates _ hclaim =>
    have honce := h.once
    rw [hcandidates, List.pairwise_cons] at honce
    have hmakes : c.Makes (.claim c.now e.id) :=
      ⟨rfl, rfl, by simp [Store.Call.clock?], fun _ _ _ heq => nomatch heq⟩
    refine h.call hgrace hmakes ?_ rfl rfl (hcandidates ▸ List.sublist_cons_self _ _)
      fun clock id heq => ?_
    · simp [Store.after, hclaim]
    · cases heq
      exact ⟨⟨e, hcandidates ▸ List.mem_cons_self, rfl⟩, fun x hx => (honce.1 x hx).symm⟩
  | worked _ hprogress => exact h.leave hgrace hprogress.leaves rfl rfl (List.Sublist.refl _)

end Paced
end Core

/-! ## Runs -/

namespace Service

/-- The clock stays between two instants, recorded events get fresh identifiers, and every
logger has the grace of the settings. -/
def keepsPace (start stop : Instant) (s : Service) (m : Move) : Bool :=
  s.givesFresh m &&
    match m with
    | .act p _ _ => p.grace = s.dispatcher.settings.policy.grace
    | .elapse milliseconds =>
      start ≤ (s.dispatcher.elapse milliseconds).now &&
        (s.dispatcher.elapse milliseconds).now ≤ stop
    | .setClock now => start ≤ now && now ≤ stop
    | _ => true

variable {grace : Duration} {start stop : Instant} {s s' : Service} {m : Move}

theorem paced_after? (h : s.core.Paced grace start stop) (hgrace : 0 ≤ grace.nanos)
    (hm : s.keepsPace start stop m = true) (hafter : s.after? m = some s') :
    s'.core.Paced grace start stop := by
  obtain ⟨hfresh, hrest⟩ : s.givesFresh m = true ∧ _ := Bool.and_eq_true_iff.1 hm
  have hstep := step_of_after? hfresh hafter
  have hclock : start ≤ s'.core.now ∧ s'.core.now ≤ stop := by
    cases m with
    | elapse milliseconds =>
      cases hafter
      simpa [core, Dispatcher.core] using hrest
    | setClock now =>
      cases hafter
      simpa [core, Dispatcher.core] using hrest
    | _ =>
      rw [hstep.now_eq (by simp) (by simp)]
      exact ⟨h.notBefore, h.notAfter⟩
  refine h.step hgrace hstep ?_ hclock.1 hclock.2
  rintro p e action rfl
  simpa [core, Dispatcher.core] using hrest

/-- Wherever a run leads that keeps the pace, every event has waited for each of its claims. -/
theorem paced_of_reaches (h : s.core.Paced grace start stop) (hgrace : 0 ≤ grace.nanos)
    (hreach : Reaches (keepsPace start stop) s s') : s'.core.Paced grace start stop :=
  hreach.induct (P := fun s => s.core.Paced grace start stop) h
    fun _ _ _ hpaced hm hafter => paced_after? hpaced hgrace hm hafter

theorem paced_of_build? {registry : Registry} {settings : Settings} {access : Access}
    {election : Election} {now : Instant}
    (hbuild : build? registry settings access election now = some s) (hstart : start ≤ now)
    (hstop : now ≤ stop) : s.core.Paced settings.policy.grace start stop := by
  unfold build? at hbuild
  split at hbuild
  · cases hbuild
    exact ⟨rfl, hstart, hstop, Store.distinctIds_empty, (fun _ he => nomatch he),
      (fun _ hx => nomatch hx), List.Pairwise.nil⟩
  · cases hbuild

end Service
end EventDispatch
