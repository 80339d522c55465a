import EventDispatch.Proofs.Run.Delivery
import EventDispatch.Proofs.Run.Ending
import EventDispatch.Proofs.Run.Mirroring
import EventDispatch.Proofs.Run.Outcomes

/-!
# Workers outlive the loop

**Input.** A service whose loop is to stop, and a worker that it has then.  From there on
the service goes on with the signal or as if it had not been sent, and in the second case
further cycles may begin.

**Rule.** Nothing but the worker changes the account of its event, and its handler is out
of time, if it ever is, when it has a given number of actions left
(`Service.isRunAlone`).

**Invariant.** The account of the event, with the actions ahead of the worker posted to
it, is the same throughout (`Service.LeadsTo`).

**Results.** So the event has one outcome, with the signal and without it
(`account_of_ended`).  `shutdown_stops_dispatching` puts together what the signal stops
and what it does not.
-/

namespace EventDispatch

/-! ## The numbers of workers -/

namespace Core

variable {c c' : Core} {m : Move}

/-- The workers have distinct numbers, and all of them were given out. -/
structure Numbered (c : Core) : Prop where
  distinct : (c.workers.map Worker.serial).Nodup
  given : ∀ w ∈ c.workers, w.serial < c.started

theorem Numbered.step (h : c.Numbered) (hstep : c.Step m c') : c'.Numbered := by
  cases hstep with
  | opened =>
    unfold lead
    split <;> exact ⟨h.distinct, h.given⟩
  | claimed =>
    refine ⟨?_, fun w hw => ?_⟩
    · rw [List.map_append]
      refine List.nodup_append.2 ⟨h.distinct, List.nodup_singleton _, ?_⟩
      rintro _ hserial _ hlast rfl
      obtain ⟨w, hw, heq⟩ := List.mem_map.1 hserial
      have hlt := h.given w hw
      rw [heq, List.mem_singleton.1 hlast] at hlt
      exact Nat.lt_irrefl _ hlt
    · rcases List.mem_append.1 hw with hold | hlast
      · exact Nat.lt_succ_of_lt (h.given w hold)
      · rw [List.mem_singleton.1 hlast]
        exact Nat.lt_succ_self _
  | @worked w stage =>
    refine ⟨?_, fun v hv => ?_⟩
    · change ((c.workers.map (staged w stage)).map Worker.serial).Nodup
      simp only [List.map_map, Function.comp_def, serial_staged]
      exact h.distinct
    · change v ∈ c.workers.map (staged w stage) at hv
      obtain ⟨x, hx, rfl⟩ := List.mem_map.1 hv
      rw [serial_staged]
      exact h.given x hx
  | ended =>
    refine ⟨?_, fun v hv => h.given v (List.mem_filter.1 hv).1⟩
    exact h.distinct.sublist (List.filter_sublist.map _)
  | _ => exact ⟨h.distinct, h.given⟩

theorem Numbered.workersOf_eq (h : c.Numbered) {w : Worker} (hw : w ∈ c.workers) :
    c.workersOf w.serial = [w] := by
  have hdistinct := h.distinct
  unfold workersOf
  clear h
  generalize c.workers = workers at hw hdistinct
  induction workers with
  | nil => cases hw
  | cons v rest ih =>
    obtain ⟨hnew, hrest⟩ := List.nodup_cons.1 hdistinct
    rcases List.mem_cons.1 hw with rfl | hw
    · rw [List.filter_cons_of_pos (by simp), List.filter_eq_nil_iff.2 fun x hx => ?_]
      intro hserial
      exact hnew (of_decide_eq_true hserial ▸ List.mem_map_of_mem hx)
    · have hne : v.serial ≠ w.serial := fun heq => hnew (heq ▸ List.mem_map_of_mem hw)
      rw [List.filter_cons_of_neg (by simpa using hne)]
      exact ih hw hrest

end Core

namespace Service

variable {registry : Registry} {settings : Settings} {access : Access} {election : Election}
  {now : Instant} {s s' t u : Service} {w w₀ : Worker} {m : Move}

theorem numbered_of_reaches
    (h : Reaches givesFresh (.ofDispatcher (.initial registry settings access election now)) s) :
    s.core.Numbered := by
  refine h.induct (P := fun s => s.core.Numbered) ⟨?_, ?_⟩
    fun _ _ _ hnumbered hm hafter => hnumbered.step (step_of_after? hm hafter)
  · exact List.nodup_nil
  · intro w hw
    cases hw

/-- The event that a worker runs is stored. -/
theorem stored_of_worker
    (h : Reaches givesFresh (.ofDispatcher (.initial registry settings access election now)) s)
    (hw : w ∈ s.dispatcher.workers) :
    ∃ e ∈ s.dispatcher.store.events, e.id = w.event.id := by
  have hfresh : ∀ s m, givesFresh s m = true → s.givesFresh m = true := fun _ _ h => h
  obtain ⟨begun, seen, entry, hstarted, -, -, hseen⟩ :=
    (traced_of_reaches hfresh rfl rfl h).workers w hw
  obtain ⟨e, he, hlater⟩ := hstarted.stored Store.distinctIds_empty
  exact ⟨e, he, by rw [hlater.id, hseen]⟩

/-! ## The outcome of a worker -/

/-- The event of the worker is left to it, and its handler is out of time exactly when it
has so many actions left. -/
def isRunAlone (w : Worker) (cut : Option Nat) (s : Service) (m : Move) : Bool :=
  s.isLeftTo w m &&
    match m with
    | .work serial => serial ≠ w.serial ||
        (s.core.workersOf serial).all fun v => v.keepsCut s.dispatcher.uptime cut
    | _ => true

/-- With the actions ahead of the worker, the account of its event comes to an outcome. -/
structure LeadsTo (p : Policy) (earlier : Nat) (cut : Option Nat) (outcome : Account)
    (s : Service) (w : Worker) : Prop where
  calls : w.awaitsCall = true → s.dispatcher.callsFor w.event.id = earlier
  account : ∃ x, s.dispatcher.store.accountOf? w.event.id = some x ∧
    postAll p.grace x (w.ahead p earlier cut) = outcome

/-- The worker leads its event to an outcome, or it has ended and the event came to it. -/
structure Heads (p : Policy) (earlier : Nat) (cut : Option Nat) (outcome : Account)
    (w₀ : Worker) (s : Service) : Prop where
  access : s.dispatcher.access = .unhindered
  ids : s.dispatcher.store.DistinctIds
  policy : s.dispatcher.settings.policy = p
  given : w₀.serial < s.dispatcher.started
  goes : (∃ w, s.core.workersOf w₀.serial = [w] ∧ w.event = w₀.event ∧
      LeadsTo p earlier cut outcome s w) ∨
    s.core.workersOf w₀.serial = [] ∧
      s.dispatcher.store.accountOf? w₀.event.id = some outcome

section Outcome

variable {p : Policy} {earlier : Nat} {cut : Option Nat} {outcome : Account}

/-- A step of the worker itself. -/
theorem LeadsTo.work (h : LeadsTo p earlier cut outcome s w)
    (haccess : s.dispatcher.access = .unhindered) (hids : s.dispatcher.store.DistinctIds)
    (hpolicy : s.dispatcher.settings.policy = p)
    (hcut : w.keepsCut s.dispatcher.uptime cut = true) {d : Dispatcher} {stage : Stage}
    (hstep : s.dispatcher.workerStep w = some (d, some stage)) :
    LeadsTo p earlier cut outcome { s with dispatcher := d.putWorker { w with stage } }
      { w with stage } where
  calls hawaits := by
    obtain ⟨hbefore, hnone⟩ := Dispatcher.awaitsCall_of_workerStep hstep hawaits
    change d.callsFor w.event.id = _
    rw [(Dispatcher.calls_of_workerStep hstep).2, hnone, ite_self, Nat.add_zero]
    exact h.calls hbefore
  account := by
    subst hpolicy
    obtain ⟨x, hx, houtcome⟩ := h.account
    obtain ⟨f, change, hposts, hahead, -⟩ :=
      (Dispatcher.advances_of_workerStep hstep hcut h.calls).posts haccess hids
    exact ⟨change x, hposts.accountOf? hids hx, (hahead x).trans houtcome⟩

/-- Once a worker has nothing left to do, its event has come to its outcome. -/
theorem LeadsTo.ends (h : LeadsTo p earlier cut outcome s w) (hstage : w.stage = .closing []) :
    s.dispatcher.store.accountOf? w.event.id = some outcome := by
  obtain ⟨x, hx, houtcome⟩ := h.account
  rw [hx, ← houtcome]
  simp [Worker.ahead, hstage, postAll]

/-- What the event does not notice has no part in its outcome. -/
theorem LeadsTo.others (h : LeadsTo p earlier cut outcome s w)
    (hconcern : s'.concern w.event.id = s.concern w.event.id) :
    LeadsTo p earlier cut outcome s' w := by
  obtain ⟨haccount, hcalls⟩ := Prod.mk.inj hconcern
  obtain ⟨x, hx, houtcome⟩ := h.account
  exact ⟨fun hawaits => hcalls.trans (h.calls hawaits), x, haccount.trans hx, houtcome⟩

/-- Every such move keeps the outcome. -/
theorem Heads.after? (h : Heads p earlier cut outcome w₀ s)
    (hm : s.isRunAlone w₀ cut m = true) (hafter : s.after? m = some s') :
    Heads p earlier cut outcome w₀ s' := by
  obtain ⟨hleft, hcut⟩ := Bool.and_eq_true_iff.1 hm
  have hstep := step_of_after? (givesFresh_of_isLeftTo hleft) hafter
  have haccess : s'.dispatcher.access = .unhindered := by
    refine (access_of_after? hafter ?_).trans h.access
    rintro access rfl
    cases (Bool.and_eq_true_iff.1 hleft).2
  have hsettings : s'.dispatcher.settings = s.dispatcher.settings := hstep.settings_eq
  refine ⟨haccess, (hstep.writes.later h.ids).2, ?_,
    Nat.lt_of_lt_of_le h.given hstep.started_le, ?_⟩
  · rw [hsettings]
    exact h.policy
  · by_cases hown : m = .work w₀.serial
    · subst hown
      rcases h.goes with ⟨w, hworker, hevent, hleads⟩ | ⟨hgone, -⟩
      · obtain ⟨hknown, hserial⟩ := knows_of_workersOf hworker
        rw [← hserial, after?_work hknown] at hafter
        split at hafter
        · cases hafter
        · next d hends =>
          cases hafter
          obtain ⟨rfl, hstage⟩ := Dispatcher.closing_of_workerStep hends
          refine Or.inr ⟨?_, ?_⟩
          · rw [hserial]
            exact s.workersOf_drop w₀.serial
          · rw [← hevent]
            exact hleads.ends hstage
        · next d stage hgoesOn =>
          cases hafter
          have hkept : w.keepsCut s.dispatcher.uptime cut = true := by
            simpa [hworker] using hcut
          exact Or.inl ⟨_, workersOf_put hworker hgoesOn, hevent,
            hleads.work h.access h.ids h.policy hkept hgoesOn⟩
      · obtain ⟨d, hwork, -⟩ := Option.map_eq_some_iff.1 hafter
        obtain ⟨w, hw, hserial, -⟩ := Dispatcher.worker_of_workOn? hwork
        have hmem : w ∈ s.core.workersOf w₀.serial :=
          List.mem_filter.2 ⟨hw, by simpa using hserial⟩
        rw [hgone] at hmem
        cases hmem
    · have hworkers := hstep.workersOf_eq h.given hown
      have hconcern := concern_of_isLeftTo hleft hown hafter
      rcases h.goes with ⟨w, hworker, hevent, hleads⟩ | ⟨hgone, haccount⟩
      · exact Or.inl ⟨w, hworkers.trans hworker, hevent,
          hleads.others (by rw [hevent]; exact hconcern)⟩
      · exact Or.inr ⟨hworkers.trans hgone, (congrArg Prod.fst hconcern).trans haccount⟩

end Outcome

/-- The account that a worker leaves of its event, if the event is left to it. -/
def foretold (s : Service) (w : Worker) (cut : Option Nat) : Option Account :=
  (s.dispatcher.store.accountOf? w.event.id).map fun x =>
    postAll s.dispatcher.settings.policy.grace x
      (w.ahead s.dispatcher.settings.policy (s.dispatcher.callsFor w.event.id) cut)

/-- However a worker comes to its end, it leaves its event as foretold. -/
theorem account_of_ended {cut : Option Nat} {outcome : Account}
    (haccess : s.dispatcher.access = .unhindered) (hids : s.dispatcher.store.DistinctIds)
    (hnumbered : s.core.Numbered) (hw : w ∈ s.dispatcher.workers)
    (hforetold : s.foretold w cut = some outcome) (hreach : Reaches (isRunAlone w cut) s t)
    (hgone : t.core.workersOf w.serial = []) :
    t.dispatcher.store.accountOf? w.event.id = some outcome := by
  obtain ⟨x, hx, houtcome⟩ := Option.map_eq_some_iff.1 hforetold
  have hheads := hreach.induct
    (P := Heads s.dispatcher.settings.policy (s.dispatcher.callsFor w.event.id) cut outcome w)
    ⟨haccess, hids, rfl, hnumbered.given w hw, Or.inl ⟨w, hnumbered.workersOf_eq hw, rfl,
      fun _ => rfl, x, hx, houtcome⟩⟩
    fun _ _ _ hbefore hm hafter => hbefore.after? hm hafter
  rcases hheads.goes with ⟨v, hworker, -⟩ | ⟨-, haccount⟩
  · rw [hworker] at hgone
    cases hgone
  · exact haccount

/-! ## What the signal stops, and what it does not -/

/-- A worker goes on, or time passes. -/
def onlyWorks (_ : Service) : Move → Bool
  | .work _ => true
  | .elapse _ => true
  | _ => false

theorem letsWork_onlyWorks : LetsWork onlyWorks := ⟨fun _ _ => rfl, fun _ _ => rfl⟩

theorem reaches_of_staysToStop {s₀ : Service} {moves : List Move} (h : Reaches givesFresh s₀ s)
    (hrun : s.follow? staysToStop moves = some t) : Reaches givesFresh s₀ t :=
  h.trans ((Reaches.refl.follow? hrun).mono fun _ _ hm => (Bool.and_eq_true_iff.1 hm).1)

/-- From the point on at which the loop is told to stop, or nobody is left to tell it anything:

no cycle begins but one for which the loop took up a reason before; once the loop has gone through
the events of its cycle, nothing is claimed and no worker is started; a loop that goes on ends, and
from then on each request is refused;

and the workers can still end.  Had the signal not been sent, the same moves but for those of the
signal lead to the same store and the same workers, and whatever is done from there on, but to begin
another cycle, has the same effect or is impossible in both.  Even where further cycles begin
without the signal, a worker whose event is left to it has one outcome, with the signal and
without it. -/
theorem shutdown_stops_dispatching {moves more : List Move}
    (h : Reaches givesFresh (.ofDispatcher (.initial registry settings access election now)) s)
    (htold : s.shutdown.saysStop = true) (hrun : s.follow? staysToStop moves = some t)
    (hmore : t.follow? staysToStop more = some u) :
    s.beginnings moves ≤ s.isAboutToBegin.toNat ∧
    (t.isCycling = false →
      u.isCycling = false ∧ t.beginnings more = 0 ∧ t.claims more = [] ∧ t.ClaimsNothing u) ∧
    (t.loop.phase ≠ .unstarted → t.runLoop.loop.phase = .ended) ∧
    (t.loop.phase = .ended → u.loop.phase = .ended ∧ ∀ hint, (u.trigger hint).1 = false) ∧
    (∃ v, Reaches onlyWorks t v ∧ v.dispatcher.workers = []) ∧
    (∃ t', s.unsignalled.follow? isCalm (s.withoutSignal moves) = some t' ∧
      t.dispatcher.Alike t'.dispatcher ∧
      ∀ rest, Option.Rel (fun v v' => v.dispatcher.Alike v'.dispatcher)
        (t.follow? isCalm rest) (t'.follow? isCalm rest)) ∧
    (s.dispatcher.access = .unhindered → ∀ w ∈ s.dispatcher.workers, ∀ cut, ∃ outcome,
      s.foretold w cut = some outcome ∧
        ∀ v, Reaches (isRunAlone w cut) s v ∨ Reaches (isRunAlone w cut) s.unsignalled v →
          v.core.workersOf w.serial = [] →
            v.dispatcher.store.accountOf? w.event.id = some outcome) := by
  have hfresh : ∀ s m, givesFresh s m = true → s.givesFresh m = true := fun _ _ h => h
  have hstopping : s.Stopping := ⟨wired_of_reaches h, htold⟩
  have hreach := reaches_of_staysToStop h hrun
  have hstopping' := hstopping.run hrun
  refine ⟨?_, fun hquiet => ?_, hstopping'.ended_runLoop, fun hended => ?_, ?_, ?_,
    fun haccess w hw cut => ?_⟩
  · exact Nat.le_trans (Nat.le_add_right _ _) (hstopping.beginnings_le hrun)
  · have hids := distinctIds_of_reaches hfresh hreach
    obtain ⟨hquiet', hclaims, hclaimsNothing⟩ := hstopping'.run_claims_nothing hids hquiet hmore
    refine ⟨hquiet', ?_, hclaims, hclaimsNothing⟩
    have hnot : t.isAboutToBegin = false := by
      refine Bool.eq_false_iff.2 fun habout => ?_
      rw [isCycling_of_isAboutToBegin habout] at hquiet
      cases hquiet
    have hcount := hstopping'.beginnings_le hmore
    rw [hnot, Bool.toNat_false] at hcount
    omega
  · have hended' : u.loop.phase = .ended :=
      (Reaches.refl.follow? hmore).induct (P := fun u => u.loop.phase = .ended) hended
        fun _ _ _ hbefore _ hafter => ended_after? hbefore hafter
    exact ⟨hended', (hstopping'.run hmore).wired.trigger_eq_false hended'⟩
  · exact letsWork_onlyWorks.ends_all .refl (numbered_of_reaches hreach).distinct
  · obtain ⟨t', hrun', hmirrors⟩ := (Mirrors.alongside s.alongside_unsignalled).run hstopping hrun
    refine ⟨t', hrun', hmirrors.accords.dispatcher, fun rest => ?_⟩
    exact rel_mono (hmirrors.follow? rest) fun _ _ hend => hend.accords.dispatcher
  · have hids := distinctIds_of_reaches hfresh h
    have hnumbered := numbered_of_reaches h
    obtain ⟨e, he, hid⟩ := stored_of_worker h hw
    have hforetold : ∃ outcome, s.foretold w cut = some outcome := by
      rw [foretold, ← hid, Store.accountOf?_of_mem hids he]
      exact ⟨_, rfl⟩
    obtain ⟨outcome, houtcome⟩ := hforetold
    refine ⟨outcome, houtcome, fun v hv hgone => ?_⟩
    rcases hv with hsent | hnotSent
    · exact account_of_ended haccess hids hnumbered hw houtcome hsent hgone
    · exact account_of_ended (s := s.unsignalled) haccess hids hnumbered hw houtcome hnotSent hgone

/-- A handler that sleeps before it is done. -/
def restingStart : Service :=
  .ofDispatcher
    (.initial
      (Registry.empty.register "a:r" .team
        (.ofScripts [⟨[.act (.sleep 50), .act (.log .info "rested")], .outcome .done⟩]))
      ⟨1000, ⟨.ofSeconds 180, 5⟩, none⟩ .unhindered .always .epoch)

/-- The first worker sleeps and the loop has received the request for the next cycle, as another
request, a change of the paused classes and the tick wait and the signal comes. -/
def signalledMoves : List Move :=
  [Move.start, .register "a:r" "o" (.ofSeconds 300) (.ok .null)] ++ List.replicate 5 Move.loop ++
    List.replicate 5 (Move.work 0) ++
    [Move.register "a:r" "p" (.ofSeconds 300) (.ok .null), .loop, .trigger "again", .pause .compute,
      .elapse 2000, .shutdown true]

/-- The last cycle claims the second event, and the loop ends. -/
def lastLoopMoves : List Move := List.replicate 6 Move.loop

/-- An event is registered in vain, and both workers finish. -/
def remainingMoves : List Move :=
  [Move.register "a:r" "q" (.ofSeconds 300) (.ok .null)] ++ List.replicate 6 (Move.work 0) ++
    List.replicate 5 (Move.work 1) ++ [Move.elapse 50] ++ List.replicate 6 (Move.work 1)

/-- Had the signal not come, two more cycles begin before the first worker finishes. -/
def endlessMoves : List Move :=
  List.replicate 5 Move.loop ++ [Move.register "a:r" "q" (.ofSeconds 300) (.ok .null)] ++
    List.replicate 8 Move.loop ++ List.replicate 6 (Move.work 0)

theorem shutdown_stops_dispatching_of_signalledMoves :
    ∃ s t u, Reaches givesFresh restingStart s ∧ s.shutdown.saysStop = true ∧
      s.follow? staysToStop lastLoopMoves = some t ∧ t.follow? staysToStop remainingMoves = some u ∧
      s.beginnings lastLoopMoves ≤ 1 ∧
      t.claims remainingMoves = [] ∧ t.ClaimsNothing u ∧
      t.runLoop.loop.phase = .ended ∧
      u.loop.phase = .ended ∧ (u.trigger "late").1 = false ∧
      u.dispatcher.store.events.map Event.status = [.completed, .completed, .new] ∧
      (∃ v, Reaches onlyWorks t v ∧ v.dispatcher.workers = []) ∧
      (∃ t', s.unsignalled.follow? isCalm (s.withoutSignal lastLoopMoves) = some t' ∧
        t.dispatcher.Alike t'.dispatcher ∧
        ∀ rest, Option.Rel (fun v v' => v.dispatcher.Alike v'.dispatcher)
          (t.follow? isCalm rest) (t'.follow? isCalm rest)) ∧
      s.unsignalled.beginnings endlessMoves = 3 ∧
      ∃ w ∈ s.dispatcher.workers, ∃ v v' outcome,
        s.follow? (isRunAlone w none) (lastLoopMoves ++ remainingMoves) = some v ∧
        s.unsignalled.follow? (isRunAlone w none) endlessMoves = some v' ∧
        v.dispatcher.store.accountOf? w.event.id = some outcome ∧
        v'.dispatcher.store.accountOf? w.event.id = some outcome := by
  have hrun : ((restingStart.follow? givesFresh signalledMoves).bind fun s =>
      (s.follow? staysToStop lastLoopMoves).bind fun t =>
        (t.follow? staysToStop remainingMoves).bind fun u =>
          s.dispatcher.workers.head?.bind fun w =>
            (s.follow? (isRunAlone w none) (lastLoopMoves ++ remainingMoves)).bind fun v =>
              (s.unsignalled.follow? (isRunAlone w none) endlessMoves).map fun v' =>
                (s.shutdown.saysStop && s.isAboutToBegin && !t.isCycling && t.wakeups.closed,
                  s.dispatcher.access.connected && s.dispatcher.access.down.isEmpty &&
                    !s.dispatcher.access.claimsLost,
                  (s.unsignalled.beginnings endlessMoves,
                    (v.core.workersOf w.serial).length + (v'.core.workersOf w.serial).length),
                  u.dispatcher.store.events.map Event.status)) =
      some (true, true, (3, 0), [.completed, .completed, .new]) := by
    decide +kernel
  obtain ⟨s, hs, hrun⟩ := Option.bind_eq_some_iff.1 hrun
  obtain ⟨t, ht, hrun⟩ := Option.bind_eq_some_iff.1 hrun
  obtain ⟨u, hu, hrun⟩ := Option.bind_eq_some_iff.1 hrun
  obtain ⟨w, hhead, hrun⟩ := Option.bind_eq_some_iff.1 hrun
  obtain ⟨v, hv, hrun⟩ := Option.bind_eq_some_iff.1 hrun
  obtain ⟨v', hv', hview⟩ := Option.map_eq_some_iff.1 hrun
  simp only [Prod.mk.injEq, Bool.and_eq_true, Bool.not_eq_true', List.isEmpty_iff] at hview
  obtain ⟨⟨⟨⟨htold, habout⟩, hquiet⟩, hclosed⟩, ⟨⟨hconnected, hdown⟩, hlost⟩,
    ⟨hbeginnings, hgone⟩, hstatuses⟩ := hview
  have hw : w ∈ s.dispatcher.workers := List.mem_of_mem_head? hhead
  have hopen : s.dispatcher.access = .unhindered := by
    cases hfields : s.dispatcher.access with
    | mk connected down claimsLost =>
      rw [hfields] at hconnected hdown hlost
      subst hconnected hdown hlost
      rfl
  have hreach : Reaches givesFresh restingStart s := Reaches.refl.follow? hs
  have hended : t.loop.phase = .ended :=
    (wired_of_reaches (reaches_of_staysToStop hreach ht)).closed hclosed
  obtain ⟨hbegins, hnothing, hends, hrefused, hfinish, hmirror, houtcome⟩ :=
    shutdown_stops_dispatching hreach htold ht hu
  rw [habout] at hbegins
  obtain ⟨-, -, hclaims, hclaimsNothing⟩ := hnothing hquiet
  obtain ⟨hended', hfalse⟩ := hrefused hended
  obtain ⟨outcome, -, hsame⟩ := houtcome hopen w hw none
  refine ⟨s, t, u, hreach, htold, ht, hu, hbegins, hclaims, hclaimsNothing,
    hends (by simp [hended]), hended', hfalse "late", hstatuses, hfinish, hmirror, hbeginnings,
    w, hw, v, v', outcome, hv, hv', ?_, ?_⟩
  · refine hsame v (Or.inl (Reaches.refl.follow? hv)) (List.length_eq_zero_iff.1 ?_)
    omega
  · refine hsame v' (Or.inr (Reaches.refl.follow? hv')) (List.length_eq_zero_iff.1 ?_)
    omega

end Service
end EventDispatch
