import EventDispatch.Proofs.Run.Ending
import EventDispatch.Proofs.Run.Waning

/-!
# Rounds of cycles

**Input.** A service that leads and reaches its store, with events of registered tags
only, while no class is paused.

**Algorithm.** In a round one cycle runs, at a time by which every pending event is due.
Then the workers go on until all have ended.  Handlers do what they like, time passes as
it likes, and whoever kept a logger may use it (`Service.Round`).

**Invariant.** Between the rounds no event is being run, and an event that has not ended
is good for a claim (`Service.Rested`).

**Results.** Every round can be played to its end (`Rested.exists_round`).  It leaves the
service rested (`Rested.round`), and good for fewer claims than before as long as some
event has not ended (`Rested.claimsLeft_lt`).
-/

namespace EventDispatch

/-! ## The cycle of a round -/

theorem Store.resetProcessing_of_idle {s : Store} (hidle : ∀ e ∈ s.events, e.status ≠ .processing)
    (clock : Instant) : (s.resetProcessing clock).2 = s := by
  have hsame : s.events.map (fun e =>
      if e.status = .processing && true then { e with status := .pending, updated := clock }
      else e) = s.events := by
    refine (List.map_congr_left fun e he => ?_).trans (List.map_id' _)
    simp [hidle e he]
  simp only [resetProcessing, resetWhere]
  rw [hsame]

namespace Dispatcher

variable {d : Dispatcher}

/-- Where no event is being run, the lead is taken without a change to the store. -/
theorem checkLead_of_idle (haccess : d.access = .unhindered)
    (hanswer : d.election.answer = .ok true)
    (hidle : ∀ e ∈ d.store.events, e.status ≠ .processing) :
    ∃ journal, d.checkLead = (.ok true, { d with leading := true, journal := journal }) := by
  unfold checkLead
  rw [hanswer]
  by_cases hleading : d.leading = true
  · have hsame : ({ d with leading := true } : Dispatcher) = d := by rw [← hleading]
    refine ⟨d.journal, ?_⟩
    simp only [hleading, if_true]
    rw [hsame]
  · obtain ⟨count, hreset⟩ : ∃ count,
        d.access.resetProcessing d.store d.now = .ok (count, d.store) := by
      rw [haccess]
      exact ⟨_, congrArg Except.ok (Prod.ext rfl (Store.resetProcessing_of_idle hidle d.now))⟩
    simp only [hleading, hreset]
    exact ⟨_, rfl⟩

/-- A cycle where no event is being run starts what it lists. -/
theorem cycle_of_idle (haccess : d.access = .unhindered) (hanswer : d.election.answer = .ok true)
    (hids : d.store.DistinctIds) (hidle : ∀ e ∈ d.store.events, e.status ≠ .processing)
    (paused : List EventClass) (now : Instant) {listed : List Event}
    (hlisted : d.store.dispatchable (d.registry.filterFor paused) now = listed) :
    ∃ journal journal', d.cycle paused now = (.ok (d.registry.served listed).length,
      ({ d with leading := true, journal := journal } : Dispatcher).startedFor listed
        journal') := by
  obtain ⟨journal, hlead⟩ := checkLead_of_idle haccess hanswer hidle
  have hagain : ({ d with leading := true, journal } : Dispatcher).checkLead =
      (.ok true, { d with leading := true, journal }) := by
    unfold checkLead
    simp only [hanswer]
    rfl
  have hsame : d.cycle paused now =
      ({ d with leading := true, journal } : Dispatcher).cycle paused now := by
    simp only [cycle, openCycle, hlead, hagain]
  obtain ⟨journal', hcycle⟩ := cycle_of_leading (d := { d with leading := true, journal }) haccess
    rfl hanswer hids paused now hlisted
  exact ⟨journal, journal', hsame.trans hcycle⟩

end Dispatcher

/-! ## Rounds -/

namespace Service

/-- Every pending event is due before this time. -/
def isDue (s : Service) (now : Instant) : Bool :=
  s.dispatcher.store.events.all fun e => e.status ≠ .pending || e.isOverdue now

/-- An event of a registered tag is recorded, or time passes. -/
def isFilling (s : Service) (m : Move) : Bool :=
  s.givesFresh m &&
    match m with
    | .register tag _ _ _ => s.dispatcher.registry.contains tag
    | .elapse _ => true
    | .setClock _ => true
    | _ => false

/-- A worker goes on, a handler ends that was told to stop, a logger is used, a gate is given
permits, or time passes. -/
def isAtWork (_ : Service) : Move → Bool
  | .work _ => true
  | .act _ _ _ => true
  | .release _ _ => true
  | .vanish _ => true
  | .elapse _ => true
  | .setClock _ => true
  | _ => false

/-- A cycle runs once every pending event is due, and then the workers until all have
ended. -/
structure Round (now : Instant) (s s' : Service) : Prop where
  due : s.isDue now = true
  works : Reaches isAtWork { s with dispatcher := (s.dispatcher.cycle [] now).2 } s'
  done : s'.dispatcher.workers = []

/-- So many rounds, one after the other. -/
inductive Rounds (s₀ : Service) : Nat → Service → Prop
  | none : Rounds s₀ 0 s₀
  | round {k : Nat} {s s' : Service} {now : Instant} :
      Rounds s₀ k s → Round now s s' → Rounds s₀ (k + 1) s'

/-- Nothing is being run, and an event that has not ended is good for a claim. -/
structure Rested (s : Service) : Prop where
  spending : s.core.Spending
  workers : s.dispatcher.workers = []
  candidates : s.candidates = []
  access : s.dispatcher.access = .unhindered
  leads : s.dispatcher.election.answer = .ok true
  served : ∀ e ∈ s.dispatcher.store.events, s.dispatcher.registry.contains e.tag = true

/-- What a cycle lists while no class is paused. -/
def listing (s : Service) (now : Instant) : List Event :=
  s.dispatcher.store.dispatchable (s.dispatcher.registry.filterFor []) now

/-- What a cycle and its workers have made of a service so far. -/
structure Worked (s t : Service) : Prop where
  spending : t.core.Spending
  wanes : s.dispatcher.store.Wanes t.dispatcher.store
  access : t.dispatcher.access = .unhindered
  loop : t.loop = s.loop
  registry : t.dispatcher.registry = s.dispatcher.registry
  settings : t.dispatcher.settings = s.dispatcher.settings
  election : t.dispatcher.election = s.dispatcher.election

section Work

variable {s t t' : Service} {m : Move}

theorem Worked.candidates (h : Worked s t) : t.candidates = s.candidates := by
  unfold Service.candidates
  rw [h.loop]

/-- Each move of a round keeps the invariant, and no event becomes good for more claims. -/
theorem Worked.after? (h : Worked s t) (hnothing : s.candidates = [])
    (hm : t.isAtWork m = true) (hafter : t.after? m = some t') : Worked s t' := by
  have hstep : t.core.Step m t'.core :=
    step_of_after? (by cases m <;> first | rfl | cases hm) hafter
  have hregistry : t'.dispatcher.registry = s.dispatcher.registry :=
    hstep.registry_eq.trans h.registry
  have hsettings : t'.dispatcher.settings = s.dispatcher.settings :=
    hstep.settings_eq.trans h.settings
  have helection : t'.dispatcher.election = s.dispatcher.election := by
    refine Eq.trans (hstep.election_eq ?_) h.election
    rintro election rfl
    cases hm
  cases m with
  | work serial =>
    obtain ⟨d, hwork, rfl⟩ := Option.map_eq_some_iff.1 hafter
    obtain ⟨w, hw, rfl, ⟨hstage, rfl⟩ | ⟨d₁, stage, hgoesOn, rfl⟩⟩ :=
      Dispatcher.worker_of_workOn? hwork
    · exact ⟨h.spending.drop hw hstage, h.wanes, h.access, h.loop, hregistry, hsettings,
        helection⟩
    · obtain ⟨-, hprogress⟩ :=
        Dispatcher.progress_of_workerStep hgoesOn t.candidates t.pauses.classes
      have hcloses := Dispatcher.closes_of_workerStep h.access h.spending.ids hgoesOn
        t.candidates t.pauses.classes
      obtain ⟨f, hrevises, hless, -⟩ := hprogress.spends h.spending.ids hcloses
      refine ⟨?_, h.wanes.trans (hrevises.wanes hless), ?_, h.loop, hregistry, hsettings,
        helection⟩
      · change ((d₁.putWorker { w with stage }).core t.candidates t.pauses.classes).Spending
        rw [Dispatcher.core_putWorker hgoesOn]
        exact h.spending.work hw hprogress hcloses
      · exact (Dispatcher.calls_of_workerStep hgoesOn).1.trans h.access
  | act p e action =>
    cases hafter
    have hacts :=
      t.dispatcher.acts_performUnder t.candidates t.pauses.classes p e action
    obtain ⟨f, hrevises, hturns⟩ := hacts.revises h.spending.ids
    have hwanes : t.dispatcher.store.Wanes (t.dispatcher.performUnder p e action).store :=
      hrevises.wanes fun most x => (hturns x).claimsLeft_le most
    exact ⟨h.spending.act (h.candidates.trans hnothing) hacts, h.wanes.trans hwanes, h.access,
      h.loop, hregistry, hsettings, helection⟩
  | elapse | setClock | release | vanish =>
    cases hafter
    exact ⟨h.spending.congr rfl rfl rfl rfl rfl, h.wanes, h.access, h.loop, hregistry,
      hsettings, helection⟩
  | _ => cases hm

theorem Worked.of_reaches (hspending : s.core.Spending) (hnothing : s.candidates = [])
    (haccess : s.dispatcher.access = .unhindered) (h : Reaches isAtWork s t) : Worked s t :=
  h.induct (P := Worked s)
    ⟨hspending, .refl _, haccess, rfl, rfl, rfl, rfl⟩
    fun _ _ _ hworked hm hafter => hworked.after? hnothing hm hafter

theorem Worked.trans (h : Worked s t) (h' : Worked t t') : Worked s t' where
  spending := h'.spending
  wanes := h.wanes.trans h'.wanes
  access := h'.access
  loop := h'.loop.trans h.loop
  registry := h'.registry.trans h.registry
  settings := h'.settings.trans h.settings
  election := h'.election.trans h.election

end Work

theorem letsWork_isAtWork : LetsWork isAtWork := ⟨fun _ _ => rfl, fun _ _ => rfl⟩

/-! ## One round -/

namespace Rested

variable {s t : Service} {now : Instant}

theorem idles (h : s.Rested) {e : Event} (he : e ∈ s.dispatcher.store.events) :
    e.standing.Idles s.dispatcher.settings.policy.maxRetries := by
  refine h.spending.idle e he fun w hw => ?_
  rw [show s.core.workers = [] from h.workers] at hw
  cases hw

theorem ne_processing (h : s.Rested) :
    ∀ e ∈ s.dispatcher.store.events, e.status ≠ .processing :=
  fun _ he => (h.idles he).ne_processing

theorem mem_of_mem_listing {e : Event} (he : e ∈ s.listing now) :
    e ∈ s.dispatcher.store.events ∧ (e.status = .pending ∨ e.status = .new) := by
  obtain ⟨hmem, hready⟩ := Store.mem_of_mem_dispatchable he
  exact ⟨hmem, hready.imp_left And.left⟩

/-- A pending event is listed, or something in its place. -/
theorem listing_ne_nil_of_pending (h : s.Rested) (hdue : s.isDue now = true) {e : Event}
    (he : e ∈ s.dispatcher.store.events) (hpending : e.status = .pending) :
    s.listing now ≠ [] := by
  have hoverdue : e.isOverdue now = true := by
    simpa [hpending] using List.all_eq_true.1 hdue e he
  have hknown : (s.dispatcher.registry.filterFor []).isKnown e.tag = true :=
    (s.dispatcher.registry.isKnown_filterFor [] e.tag).trans (h.served e he)
  rcases Store.listed_or_blocked he (Or.inl ⟨hpending, hoverdue⟩)
      (s.dispatcher.registry.isPaused_filterFor_nil e.tag) hknown with
    hlisted | ⟨x, hx, hrun, -⟩ | ⟨x, hx, -⟩ | ⟨hnew, -⟩
  · exact List.ne_nil_of_mem hlisted
  · exact absurd hrun (h.ne_processing x hx)
  · exact List.ne_nil_of_mem hx
  · rw [hpending] at hnew
    cases hnew

/-- As long as some event has not ended, something is listed. -/
theorem listing_ne_nil (h : s.Rested) (hdue : s.isDue now = true) {e : Event}
    (he : e ∈ s.dispatcher.store.events) (hleft : ¬ e.status.isTerminal = true) :
    s.listing now ≠ [] := by
  rcases h.idles he with hended | ⟨hnew | hpending, -⟩
  · exact absurd hended hleft
  · have hknown : (s.dispatcher.registry.filterFor []).isKnown e.tag = true :=
      (s.dispatcher.registry.isKnown_filterFor [] e.tag).trans (h.served e he)
    have hready : e.status = .pending ∧ e.isOverdue now = true ∨ e.status = .new := Or.inr hnew
    rcases Store.listed_or_blocked he hready
        (s.dispatcher.registry.isPaused_filterFor_nil e.tag) hknown with
      hlisted | ⟨x, hx, hrun, -⟩ | ⟨x, hx, -⟩ | ⟨-, x, hx, hpending, -⟩
    · exact List.ne_nil_of_mem hlisted
    · exact absurd hrun (h.ne_processing x hx)
    · exact List.ne_nil_of_mem hx
    · -- The pending event that a new one waits for is due itself.
      exact h.listing_ne_nil_of_pending hdue hx hpending
  · exact h.listing_ne_nil_of_pending hdue he hpending

/-- A cycle claims whatever it lists, and starts a worker for each. -/
theorem cycle_eq (h : s.Rested) (now : Instant) :
    ∃ journal journal', s.dispatcher.cycle [] now = (.ok (s.listing now).length,
      ({ s.dispatcher with leading := true, journal := journal } : Dispatcher).startedFor
        (s.listing now) journal') ∧
      s.dispatcher.registry.served (s.listing now) = s.listing now := by
  have hlisted : s.dispatcher.store.dispatchable (s.dispatcher.registry.filterFor []) now =
      s.listing now := rfl
  obtain ⟨journal, journal', hcycle⟩ := Dispatcher.cycle_of_idle h.access h.leads
    h.spending.ids h.ne_processing [] now hlisted
  have hserved : s.dispatcher.registry.served (s.listing now) = s.listing now :=
    List.filter_eq_self.2 fun e he => h.served e (mem_of_mem_listing he).1
  rw [hserved] at hcycle
  exact ⟨journal, journal', hcycle, hserved⟩

theorem worked_cycle (h : s.Rested) (now : Instant) :
    Worked s { s with dispatcher := (s.dispatcher.cycle [] now).2 } := by
  obtain ⟨journal, journal', hcycle, hserved⟩ := h.cycle_eq now
  generalize hd : ({ s.dispatcher with leading := true, journal := journal } : Dispatcher) = d
    at hcycle
  have hlisted : (d.core (s.listing now) s.pauses.classes).Spending := by
    refine (h.spending.list h.workers (s.dispatcher.registry.filterFor []) now).congr ?_ ?_ ?_ ?_
      rfl <;> subst hd <;> rfl
  have hclear : d.store.Clear d.registry (s.listing now) := by
    subst hd
    exact Store.clear_dispatchable h.spending.ids s.dispatcher.registry [] now
  obtain ⟨told, hall⟩ := Dispatcher.startAll_of_clear (by subst hd; exact h.access) hclear
  have hspending := Dispatcher.spending_startAll hlisted
  rw [hall] at hspending
  have hwanes : s.dispatcher.store.Wanes (d.startedFor (s.listing now) journal').store := by
    subst hd
    simp only [Dispatcher.startedFor, hserved]
    exact Store.wanes_claimed h.spending.ids _ fun e he => mem_of_mem_listing he
  rw [hcycle]
  refine ⟨?_, hwanes, ?_, rfl, ?_, ?_, ?_⟩
  · change ((d.startedFor (s.listing now) journal').core s.candidates s.pauses.classes).Spending
    rw [h.candidates]
    exact hspending
  all_goals
    subst hd
    first | exact h.access | rfl

/-- What a round leaves is rested again. -/
theorem of_worked (h : s.Rested) (hworked : Worked s t) (hdone : t.dispatcher.workers = []) :
    t.Rested where
  spending := hworked.spending
  workers := hdone
  candidates := hworked.candidates.trans h.candidates
  access := hworked.access
  leads := hworked.election ▸ h.leads
  served e he := by
    obtain ⟨x, hx, htag⟩ := hworked.wanes.tags he
    rw [hworked.registry, htag]
    exact h.served x hx

theorem worked_of_round (h : s.Rested) (hround : Round now s t) :
    Worked { s with dispatcher := (s.dispatcher.cycle [] now).2 } t := by
  have hcycle := h.worked_cycle now
  exact .of_reaches hcycle.spending h.candidates hcycle.access hround.works

theorem round (h : s.Rested) (hround : Round now s t) : Worked s t ∧ t.Rested := by
  have hworked := (h.worked_cycle now).trans (h.worked_of_round hround)
  exact ⟨hworked, h.of_worked hworked hround.done⟩

/-- A round takes a claim off, as long as some event has not ended. -/
theorem claimsLeft_lt (h : s.Rested) (hround : Round now s t) {e : Event}
    (he : e ∈ s.dispatcher.store.events) (hleft : ¬ e.status.isTerminal = true) :
    t.dispatcher.store.claimsLeft s.dispatcher.settings.policy.maxRetries <
      s.dispatcher.store.claimsLeft s.dispatcher.settings.policy.maxRetries := by
  obtain ⟨journal, journal', hcycle, hserved⟩ := h.cycle_eq now
  obtain ⟨x, hx⟩ := List.exists_mem_of_ne_nil _ (h.listing_ne_nil hround.due he hleft)
  obtain ⟨hmem, hready⟩ := mem_of_mem_listing hx
  have hbound : x.retries ≤ s.dispatcher.settings.policy.maxRetries := by
    rcases h.idles hmem with hended | ⟨-, hbound⟩
    · change x.status.isTerminal = true at hended
      rcases hready with hstatus | hstatus <;> simp [hstatus, Status.isTerminal] at hended
    · exact hbound
  refine Nat.lt_of_le_of_lt ((h.worked_of_round hround).wanes.claimsLeft_le _) ?_
  rw [hcycle]
  simp only [Dispatcher.startedFor, hserved]
  exact Store.claimsLeft_claimed_lt h.spending.ids _ (fun e he => mem_of_mem_listing he) hx hbound

/-- A round can be played to its end. -/
theorem exists_round (h : s.Rested) (hdue : s.isDue now = true) : ∃ t, Round now s t := by
  have hworked := h.worked_cycle now
  have hnodup : (s.dispatcher.cycle [] now).2.serials.Nodup :=
    List.pairwise_map.2 hworked.spending.staffed.serials
  obtain ⟨t, hreach, hdone⟩ := letsWork_isAtWork.ends_all
    (s := { s with dispatcher := (s.dispatcher.cycle [] now).2 }) .refl hnodup
  exact ⟨t, hdue, hreach, hdone⟩

/-- Once every event has ended, a cycle starts nothing. -/
theorem cycle_of_ended (h : s.Rested)
    (hended : ∀ e ∈ s.dispatcher.store.events, e.status.isTerminal = true) (now : Instant) :
    (s.dispatcher.cycle [] now).1 = .ok 0 ∧ (s.dispatcher.cycle [] now).2.workers = [] ∧
      (s.dispatcher.cycle [] now).2.started = s.dispatcher.started := by
  obtain ⟨journal, journal', hcycle, -⟩ := h.cycle_eq now
  have hnothing : s.listing now = [] := by
    refine List.eq_nil_iff_forall_not_mem.2 fun e he => ?_
    obtain ⟨hmem, hready⟩ := mem_of_mem_listing he
    have hterminal := hended e hmem
    rcases hready with hstatus | hstatus <;> simp [hstatus, Status.isTerminal] at hterminal
  rw [hcycle, hnothing]
  exact ⟨rfl, by simp [Dispatcher.startedFor, Registry.crew, h.workers], rfl⟩

end Rested

end Service
end EventDispatch
