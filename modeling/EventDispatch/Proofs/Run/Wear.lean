import EventDispatch.Proofs.Run.Rounds
import EventDispatch.Proofs.Run.Stranding

/-!
# A run of too many retries

**Input.** As many retries as a configuration can ask for, no grace, and an event with a
nanosecond to run, whose handler logs an error and wants it run again.

**Algorithm.** At each tick a cycle claims the event, and its worker comes to its end
before the next one.  The first worker that finds the retries used up still logs its error.

**Invariant.** At the `n`-th tick the event has `n` retries and is due, since the ten
seconds between two ticks are more than `n` nanoseconds (`Comes.next`).

**Results.** In the year 2650 the error at the last tick sends the event back once more than
32 bits with a sign can count (`exists_beyond`).
-/

namespace EventDispatch
namespace Service

/-- A handler that logs an error in each call and wants its event run again. -/
def wearyHandler : Handler := ⟨fun _ _ => ⟨[.log .error "busy"], .returned (.ok .retry)⟩⟩

def wearyRegistry : Registry := ⟨[("create:team", ⟨.team, wearyHandler⟩)]⟩

def wearySettings : Settings := ⟨10000, ⟨.ofSeconds 0, 2147483647⟩, none⟩

/-- The time of day after so many ticks. -/
def tickOf (n : Nat) : Instant := Instant.epoch.shift (10000000000 * n)

/-- The event after so many retries. -/
def wearyEvent (n : Nat) : Event :=
  ⟨.ofSerial 0, "create:team", "team-a", .null, if n = 0 then .new else .pending,
    ⟨1, by decide, by decide⟩, n, .epoch, tickOf (n - 1)⟩

def wearyClaimed (n : Nat) : Event :=
  { wearyEvent n with status := .processing, updated := tickOf n }

/-- The event once its handler has logged the error. -/
def wearyReturned (n : Nat) : Event := (wearyClaimed n).sentBack (tickOf n) (.ofSeconds 0)

def wearyWorker (n : Nat) (stage : Stage) : Worker :=
  ⟨n, { wearyEvent n with status := .processing }, wearyHandler, stage⟩

/-- The stage of a handler that has so much left to do. -/
def wearyStage (n : Nat) (todo : List Action) : Stage :=
  .handling todo (.returned (.ok .retry)) .none (10000 * n + 1)

/-- What workers leave behind that nothing depends on here. -/
structure Litter where
  journal : List Trace
  trail : List LogRow
  minted : Nat
  calls : List (Uuid × Nat)

/-- What workers have left behind. -/
def litter (d : Dispatcher) : Litter := ⟨d.journal, d.store.trail, d.minted, d.calls⟩

/-- The service after so many ticks. -/
def weary (n : Nat) (phase : Phase) (e : Event) (started : Nat) (workers : List Worker)
    (l : Litter) : Service :=
  ⟨⟨wearyRegistry, wearySettings, .unhindered, ⟨[e], l.trail⟩, l.minted, tickOf n, 10000 * n,
    .always, true, workers, started, [], [], 0, l.calls, 0, l.journal⟩, ⟨[], 0⟩, .empty, .initial,
    ⟨phase, ⟨0⟩, 10000 * n + 10000⟩, 0⟩

theorem nanos_tickOf {n : Nat} (hn : n ≤ 2147483648) : (tickOf n).nanos = 10000000000 * n := by
  have hlower : Instant.least ≤ Instant.epoch.nanos + 10000000000 * n := by
    simp only [Instant.least, Instant.epoch]
    omega
  have hupper : Instant.epoch.nanos + 10000000000 * n ≤ Instant.greatest := by
    simp only [Instant.greatest, Instant.epoch]
    omega
  unfold tickOf Instant.shift
  rw [dif_pos hlower, dif_pos hupper]
  simp [Instant.epoch]

theorem shift_tickOf {n : Nat} (hn : n < 2147483648) :
    (tickOf n).shift ((10000 : Nat) * 1000000) = tickOf (n + 1) := by
  have hnow := nanos_tickOf (n := n) (by omega)
  have hlower : Instant.least ≤ (tickOf n).nanos + (10000 : Nat) * 1000000 := by
    simp only [Instant.least]
    omega
  have hupper : (tickOf n).nanos + (10000 : Nat) * 1000000 ≤ Instant.greatest := by
    simp only [Instant.greatest]
    omega
  refine Instant.ext ?_
  unfold Instant.shift
  rw [dif_pos hlower, dif_pos hupper]
  change (tickOf n).nanos + (10000 : Nat) * 1000000 = _
  rw [nanos_tickOf (n := n + 1) (by omega), hnow]
  omega

theorem isOverdue_wearyEvent {n : Nat} (hn : n ≤ 2147483648) (hsome : n ≠ 0) :
    (wearyEvent n).isOverdue (tickOf n) = true := by
  have hdelay : (wearyEvent n).delay = n := by simp [Event.delay, wearyEvent]
  have hupdated : (wearyEvent n).updated.nanos = 10000000000 * (n - 1 : Nat) :=
    nanos_tickOf (by omega)
  have hcalendar : (wearyEvent n).updated.nanos + (wearyEvent n).delay ≤ Instant.greatest := by
    rw [hdelay, hupdated]
    simp only [Instant.greatest]
    omega
  obtain ⟨due, hdue, hnanos⟩ := Event.exists_dueAt? (by simp [wearyEvent])
    (by simp [wearyEvent]) hcalendar
  refine Event.isOverdue_of_dueAt?_lt hdue ?_
  rw [Instant.lt_iff, hnanos, hdelay, hupdated, nanos_tickOf hn]
  omega

theorem dispatchable_wearyEvent {n : Nat} (hn : n ≤ 2147483648) (trail : List LogRow) :
    Store.dispatchable ⟨[wearyEvent n], trail⟩ (wearyRegistry.filterFor []) (tickOf n) =
      [wearyEvent n] := by
  have hknown : (wearyRegistry.filterFor []).isKnown (wearyEvent n).tag = true := by
    change (wearyRegistry.filterFor []).isKnown "create:team" = true
    decide +kernel
  have hpaused : (wearyRegistry.filterFor []).isPaused (wearyEvent n).tag = false := by
    change (wearyRegistry.filterFor []).isPaused "create:team" = false
    decide +kernel
  by_cases hsome : n = 0
  · have hnew : (wearyEvent n).status = .new := if_pos hsome
    simp [Store.dispatchable, select, Selection.candidates, Selection.sortByAge, Selection.take,
      Selection.pendingKeys, Selection.mustWait, hnew, hknown, hpaused]
  · have hpending : (wearyEvent n).status = .pending := if_neg hsome
    simp [Store.dispatchable, select, Selection.candidates, Selection.sortByAge, Selection.take,
      Selection.pendingKeys, Selection.mustWait, hpending, hknown, hpaused,
      isOverdue_wearyEvent hn hsome]

/-! ## One tick -/

theorem loopStep_of_tickDue {s : Service} (hphase : s.loop.phase = .waiting)
    (hpoll : s.shutdown.poll? = none) (hreceive : s.wakeups.receive? = none)
    (hsame : s.pausesChanged = false) (hdue : s.tickDue = true) :
    s.loopStep = some { s with
      loop := ⟨.starting, s.loop.watcher, s.dispatcher.uptime + s.dispatcher.settings.tick⟩ } := by
  simp [loopStep, wake?, hphase, hpoll, hreceive, hsame, hdue]

theorem loopStep_of_openCycle {s : Service} (hphase : s.loop.phase = .starting) {d : Dispatcher}
    {listed : List Event} (hopen : s.dispatcher.openCycle s.pauses.classes s.dispatcher.now =
      (.ok listed, d)) :
    s.loopStep = some ({ s with dispatcher := d }.enter (.claiming listed 0)) := by
  simp only [loopStep, hphase, beginCycle, hopen]

theorem loopStep_of_startOne {s : Service} {e : Event} {rest : List Event} {count : Nat}
    (hphase : s.loop.phase = .claiming (e :: rest) count) {d : Dispatcher}
    (hone : s.dispatcher.startOne e = (true, d)) :
    s.loopStep = some ({ s with dispatcher := d }.enter (.claiming rest (count + 1))) := by
  simp only [loopStep, hphase, hone, if_true]

/-- Whether a handler waits for something after the action. -/
def suspends : Action → Bool
  | .sleep _ | .pass _ => true
  | _ => false

/-- A handler that has time performs its next action. -/
theorem workerStep_of_handling {d : Dispatcher} {w : Worker} {action : Action}
    {rest : List Action} {ending : Ending} {limit : Nat}
    (hstage : w.stage = .handling (action :: rest) ending .none limit) (hlimit : d.uptime < limit)
    (hgoesOn : suspends action = false) :
    d.workerStep w = some (d.perform w.event action, some (.handling rest ending .none limit)) := by
  have hintime : ¬ limit ≤ d.uptime := by omega
  simp only [Dispatcher.workerStep, hstage]
  unfold Dispatcher.handlingStep
  rw [if_neg hintime]
  cases action with
  | sleep | pass => cases hgoesOn
  | _ => rfl

/-- Some run comes to such a service, whatever its workers have left behind. -/
def Comes (s₀ : Service) (f : Litter → Service) : Prop :=
  ∃ l, Reaches (keepsPace .epoch .endOf2999) s₀ (f l)

section Ticks

variable {s₀ : Service} {f g : Litter → Service} {n k : Nat} {phase : Phase} {e : Event}
  {stage : Stage}

theorem Comes.move (h : Comes s₀ f) (m : Move)
    (hm : ∀ l, (f l).keepsPace .epoch .endOf2999 m = true)
    (hafter : ∀ l, ∃ l', (f l).after? m = some (g l')) : Comes s₀ g := by
  obtain ⟨l, hreach⟩ := h
  obtain ⟨l', hl'⟩ := hafter l
  exact ⟨l', .move m hreach (hm l) hl'⟩

theorem knows_wearyWorker (l : Litter) :
    (weary n phase e k [wearyWorker n stage] l).dispatcher.Knows (wearyWorker n stage) :=
  ⟨List.mem_singleton_self _, fun _ hv _ => List.mem_singleton.1 hv⟩

/-- The worker goes on, and may change its event and leave something behind. -/
theorem Comes.work (h : Comes s₀ (weary n phase e k [wearyWorker n stage])) (e' : Event)
    (stage' : Stage) (hstep : ∀ l, ∃ d,
      (weary n phase e k [wearyWorker n stage] l).dispatcher.workerStep (wearyWorker n stage) =
        some (d, some stage') ∧
      d = (weary n phase e' k [wearyWorker n stage] (litter d)).dispatcher) :
    Comes s₀ (weary n phase e' k [wearyWorker n stage']) := by
  refine h.move (.work n) (fun _ => rfl) fun l => ?_
  obtain ⟨d, hd, hsame⟩ := hstep l
  refine ⟨litter d, (after?_work (knows_wearyWorker l)).trans ?_⟩
  generalize litter d = l' at hsame ⊢
  subst hsame
  rw [hd]
  simp [weary, wearyWorker, Dispatcher.putWorker]

/-- The cycle lists the event. -/
theorem Comes.list (hn : n ≤ 2147483648)
    (h : Comes s₀ (weary n .starting (wearyEvent n) n [])) :
    Comes s₀ (weary n (.claiming [wearyEvent n] 0) (wearyEvent n) n []) := by
  refine h.move .loop (fun _ => rfl) fun l => ⟨l, ?_⟩
  have hopen : (weary n .starting (wearyEvent n) n [] l).dispatcher.openCycle [] (tickOf n) =
      (.ok [wearyEvent n], (weary n .starting (wearyEvent n) n [] l).dispatcher) := by
    rw [← dispatchable_wearyEvent hn l.trail]
    rfl
  exact loopStep_of_openCycle rfl hopen

/-- The cycle claims the event, and is over. -/
theorem Comes.claim (hn : n ≤ 2147483648)
    (h : Comes s₀ (weary n (.claiming [wearyEvent n] 0) (wearyEvent n) n [])) :
    Comes s₀ (weary n .waiting (wearyClaimed n) (n + 1) [wearyWorker n .queued]) := by
  have hclaimed : Comes s₀ (weary n (.claiming [] 1) (wearyClaimed n) (n + 1)
      [wearyWorker n .queued]) := by
    refine h.move .loop (fun _ => rfl) fun l => ?_
    have hclear := Store.clear_dispatchable (s := ⟨[wearyEvent n], l.trail⟩)
      (List.pairwise_singleton _ _) wearyRegistry [] (tickOf n)
    rw [dispatchable_wearyEvent hn] at hclear
    have hentry : wearyRegistry.find? (wearyEvent n).tag = some ⟨.team, wearyHandler⟩ := rfl
    obtain ⟨journal, hone⟩ := Dispatcher.startOne_of_clear
      (d := (weary n (.claiming [wearyEvent n] 0) (wearyEvent n) n [] l).dispatcher) rfl hclear
      hentry
    exact ⟨{ l with journal }, loopStep_of_startOne rfl hone⟩
  refine hclaimed.move .loop (fun _ => rfl) fun l => ?_
  exact ⟨{ l with journal := .debug "Dispatched events" [("count", .number 1)] :: l.journal }, rfl⟩

/-- The worker comes to where its handler has logged the error. -/
theorem Comes.logError
    (h : Comes s₀ (weary n .waiting (wearyClaimed n) k [wearyWorker n .queued])) :
    Comes s₀ (weary n .waiting (wearyReturned n) k [wearyWorker n (wearyStage n [])]) := by
  have hopening := h.work (wearyClaimed n)
    (.opening (openingActions (wearyWorker n .queued).event)) fun l => ⟨_, rfl, rfl⟩
  have hnarrated := hopening.work (wearyClaimed n)
    (.opening [.append .info "dispatching event create:team"]) fun l => ⟨_, rfl, rfl⟩
  have hready := hnarrated.work (wearyClaimed n) (.opening []) fun l => ⟨_, rfl, rfl⟩
  have hcalled := hready.work (wearyClaimed n)
    (wearyStage n (logActions (wearyWorker n .queued).event .error "busy")) fun l => by
      have htime : timeLimit (wearyWorker n .queued).event.deadline = 1 := by
        change timeLimit ⟨1, by decide, by decide⟩ = 1
        decide
      refine ⟨(weary n .waiting (wearyClaimed n) k [wearyWorker n (.opening [])]
        l).dispatcher.countCall (.ofSerial 0), ?_, rfl⟩
      unfold wearyStage
      rw [← htime]
      rfl
  -- The handler has a millisecond, and needs none.
  have hintime := Nat.lt_succ_self (10000 * n)
  have htold := hcalled.work (wearyClaimed n)
    (wearyStage n [.append .error "busy", .returnAfterError]) fun l =>
      ⟨_, workerStep_of_handling rfl hintime rfl, rfl⟩
  have hwritten := htold.work (wearyClaimed n) (wearyStage n [.returnAfterError]) fun l =>
    ⟨_, workerStep_of_handling rfl hintime rfl, rfl⟩
  exact hwritten.work (wearyReturned n) (wearyStage n []) fun l =>
    ⟨_, workerStep_of_handling rfl hintime rfl, rfl⟩

/-- As long as there are retries left, the worker ends without a further change to its event. -/
theorem Comes.leave (hn : n < 2147483647)
    (h : Comes s₀ (weary n .waiting (wearyReturned n) k [wearyWorker n (wearyStage n [])])) :
    Comes s₀ (weary n .waiting (wearyReturned n) k []) := by
  have hclosing := h.work (wearyReturned n) (.closing [.giveBack]) fun l => by
    have hmore : ¬ (2147483647 : Int) ≤ n := by omega
    have hintime : ¬ 10000 * n + 1 ≤ 10000 * n := by omega
    refine ⟨(weary n .waiting (wearyReturned n) k [wearyWorker n (wearyStage n [])] l).dispatcher,
      ?_, rfl⟩
    simp [Dispatcher.workerStep, Dispatcher.handlingStep, wearyWorker, wearyStage, weary, hintime,
      closingActions, retryActions, wearySettings, wearyEvent, hmore]
  have hgiven := hclosing.work (wearyReturned n) (.closing []) fun l => ⟨_, rfl, rfl⟩
  refine hgiven.move (.work n) (fun _ => rfl) fun l =>
    ⟨l, (after?_work (knows_wearyWorker l)).trans ?_⟩
  simp [Dispatcher.workerStep, wearyWorker, weary, Dispatcher.dropWorker]

theorem elapse_weary (hn : n < 2147483648) (l : Litter) :
    (weary n .waiting e k [] l).elapse 10000 = { weary (n + 1) .waiting e k [] l with
      loop := ⟨.waiting, ⟨0⟩, 10000 * (n + 1)⟩ } := by
  simp only [weary, elapse, Dispatcher.elapse, shift_tickOf hn, Nat.mul_succ]

theorem wearyReturned_eq (n : Nat) : wearyReturned n = wearyEvent (n + 1) := by
  have hdeadline : Duration.saturatingAdd ⟨1, by decide, by decide⟩ (.ofSeconds 0) =
      ⟨1, by decide, by decide⟩ := by decide
  simp [wearyReturned, Event.sentBack, wearyClaimed, wearyEvent, hdeadline]

/-- Ten seconds later the event is due again. -/
theorem Comes.tick (hn : n < 2147483647)
    (h : Comes s₀ (weary n .waiting (wearyReturned n) (n + 1) [])) :
    Comes s₀ (weary (n + 1) .starting (wearyEvent (n + 1)) (n + 1) []) := by
  rw [wearyReturned_eq] at h
  have hlater : Comes s₀ fun l =>
      { weary (n + 1) .waiting (wearyEvent (n + 1)) (n + 1) [] l with
        loop := ⟨.waiting, ⟨0⟩, 10000 * (n + 1)⟩ } := by
    refine h.move (.elapse 10000) (fun l => ?_) fun l =>
      ⟨l, congrArg some (elapse_weary (by omega) l)⟩
    have hnow : Dispatcher.now (.elapse
        (weary n .waiting (wearyEvent (n + 1)) (n + 1) [] l).dispatcher 10000) = tickOf (n + 1) :=
      shift_tickOf (by omega)
    have hnanos := nanos_tickOf (n := n + 1) (by omega)
    simp only [keepsPace, givesFresh, hnow, Instant.le_iff, hnanos, Bool.true_and,
      Bool.and_eq_true, decide_eq_true_eq]
    simp only [Instant.epoch, Instant.endOf2999]
    omega
  refine hlater.move .loop (fun _ => rfl) fun l => ⟨l, ?_⟩
  have hdue : tickDue { weary (n + 1) .waiting (wearyEvent (n + 1)) (n + 1) [] l with
      loop := ⟨.waiting, ⟨0⟩, 10000 * (n + 1)⟩ } = true := by
    simp [tickDue, weary, wearySettings]
  refine (loopStep_of_tickDue rfl rfl rfl rfl hdue).trans ?_
  simp only [weary, wearySettings]

theorem Comes.next (hn : n < 2147483647)
    (h : Comes s₀ (weary n .starting (wearyEvent n) n [])) :
    Comes s₀ (weary (n + 1) .starting (wearyEvent (n + 1)) (n + 1) []) :=
  (((h.list (by omega)).claim (by omega)).logError.leave hn).tick hn

end Ticks

/-- The service in its first cycle, which finds nothing. -/
def wearyStart : Service :=
  let d := Dispatcher.initial wearyRegistry wearySettings .unhindered .always .epoch
  { ofDispatcher { d with
      leading := true
      journal := [.info "Acquired leadership" [("reset", .number 0)],
        .info "Dispatcher started" [("tick_interval", .text (intervalText 10000)),
          ("handlers", .number wearyRegistry.size)]] } with
    loop := ⟨.claiming [] 0, ⟨0⟩, 10000⟩ }

theorem reaches_wearyStart : Reaches (keepsPace .epoch .endOf2999)
    (.ofDispatcher (.initial wearyRegistry wearySettings .unhindered .always .epoch))
    wearyStart := by
  have hnothing : Store.dispatchable .empty (wearyRegistry.filterFor []) .epoch = [] := by
    simp [Store.dispatchable, Store.empty, select, Selection.candidates, Selection.sortByAge,
      Selection.take]
  have hlisted : Reaches (keepsPace .epoch .endOf2999)
      (.ofDispatcher (.initial wearyRegistry wearySettings .unhindered .always .epoch))
      { wearyStart with loop := { wearyStart.loop with
        phase := .claiming (Store.dispatchable .empty (wearyRegistry.filterFor []) .epoch) 0 } } :=
    Reaches.refl.follow? (rfl : follow? _ _ [.start, .loop, .loop] = some _)
  rw [hnothing] at hlisted
  exact hlisted

/-- After that cycle the event is registered. -/
theorem exists_first_tick : ∃ s₀,
    build? wearyRegistry wearySettings .unhindered .always .epoch = some s₀ ∧
      Comes s₀ (weary 0 .starting (wearyEvent 0) 0 []) := by
  have hfirst : tickOf 0 = .epoch := Instant.ext (nanos_tickOf (by decide))
  have hregistered : wearyStart.follow? (keepsPace .epoch .endOf2999) [.loop,
      .register "create:team" "team-a" ⟨1, by decide, by decide⟩ (.ok .null), .loop, .loop] =
      some (weary 0 .starting (wearyEvent 0) 0 [] ⟨.debug "Dispatch triggered"
        [("hint", .text "create:team"), ("coalesced", .number 0)] :: .info "Event registered"
        [("event_id", .event (.ofSerial 0)), ("event_type", .text "create:team"),
          ("owner", .text "team-a")] :: wearyStart.dispatcher.journal, [], 1, []⟩) := by
    simp only [weary, wearyEvent, hfirst]
    rfl
  exact ⟨_, rfl, _, reaches_wearyStart.follow? hregistered⟩

theorem comes_of_le {s₀ : Service} (h : Comes s₀ (weary 0 .starting (wearyEvent 0) 0 [])) {n : Nat}
    (hn : n ≤ 2147483647) : Comes s₀ (weary n .starting (wearyEvent n) n []) := by
  induction n with
  | zero => exact h
  | succ n ih => exact (ih (by omega)).next (by omega)

/-- With the clock before the year 3000 an event is sent back once more than 32 bits with a sign
can count. -/
theorem exists_beyond : ∃ s₀ s,
    build? wearyRegistry wearySettings .unhindered .always .epoch = some s₀ ∧
      Reaches (keepsPace .epoch .endOf2999) s₀ s ∧
      s.dispatcher.store.events.map Event.retries = [2147483648] := by
  obtain ⟨s₀, hbuild, hfirst⟩ := exists_first_tick
  have hlast := comes_of_le hfirst (Nat.le_refl _)
  obtain ⟨l, hreach⟩ := ((hlast.list (by decide)).claim (by decide)).logError
  exact ⟨s₀, _, hbuild, hreach, rfl⟩

end Service
end EventDispatch
