import EventDispatch.Proofs.Run.Commuting
import EventDispatch.Proofs.Run.Settling
import EventDispatch.Proofs.Run.Waking
import EventDispatch.Proofs.Store.Exclusion

/-!
# The loop stops

**Input.** Any run of a service, from the point on at which the value sent to the loop
says to stop, or the sender is gone.  The loop may be anywhere then, and any requests,
changes of the paused classes and ticks may be there for it to take up.

**Algorithm.** A loop that waits looks at the signal first.  A value counts until it is
seen, and a loop that sees the value to stop ends.

**Invariant.** So a loop that has not ended has not seen this value, and nobody receives
requests exactly if the loop has ended (`Service.Wired`).

**Results.** A loop that is to stop does not leave its waiting for a cycle
(`Stopping.isCycling_of_after?`).  It begins at most the cycle for which it was under way
(`Stopping.beginnings_le`), claims nothing after that (`Stopping.run_claims_nothing`), and
ends if it goes on (`Stopping.ended_runLoop`).
-/

namespace EventDispatch

/-! ## The signal -/

namespace ShutdownSignal

variable {x y : ShutdownSignal} {news : ShutdownNews}

/-- The value sent last is to stop, or nobody is left to send another. -/
def saysStop (x : ShutdownSignal) : Bool := x.stop || x.abandoned

theorem exists_poll? (h : x.saysStop = true) (hunseen : x.stop = true → x.unseen = true) :
    ∃ news y, x.poll? = some (news, y) := by
  unfold poll?
  split
  · exact ⟨_, _, rfl⟩
  · next hseen =>
    have habandoned : x.abandoned = true :=
      (Bool.or_eq_true_iff.1 h).resolve_left fun hstop => hseen (hunseen hstop)
    exact ⟨_, _, if_pos habandoned⟩

theorem poll?_eq_some (h : x.poll? = some (news, y)) :
    y.stop = x.stop ∧ y.abandoned = x.abandoned ∧ (news = .goOn → x.stop = false) := by
  unfold poll? at h
  split at h
  · obtain ⟨rfl, rfl⟩ := Prod.mk.inj (Option.some.inj h)
    refine ⟨rfl, rfl, fun hnews => ?_⟩
    cases hstop : x.stop with
    | false => rfl
    | true =>
      rw [hstop] at hnews
      cases hnews
  · split at h
    · cases h
      exact ⟨rfl, rfl, nofun⟩
    · cases h

end ShutdownSignal

/-- What a move makes of the signal, if it is no step of the loop. -/
def Move.onSignal : Move → ShutdownSignal → ShutdownSignal
  | .shutdown stop, x => (x.send stop).2
  | .abandon, x => x.abandon
  | _, x => x

/-- A value that is sent was not seen. -/
theorem Move.unseen_onSignal {x : ShutdownSignal} (h : x.stop = true → x.unseen = true)
    (m : Move) (hstop : (m.onSignal x).stop = true) : (m.onSignal x).unseen = true := by
  cases m with
  | shutdown stop =>
    simp only [onSignal, ShutdownSignal.send] at hstop ⊢
    split
    · next habandoned =>
      rw [if_pos habandoned] at hstop
      exact h hstop
    · rfl
  | _ => exact h hstop

namespace Service

variable {s s' t : Service} {m : Move} {moves : List Move}

theorem shutdown_trigger (s : Service) (hint : String) :
    (s.trigger hint).2.shutdown = s.shutdown := by
  unfold trigger
  split <;> rfl

/-- Whatever is no step of the loop has no effect on the signal unless it sends it. -/
theorem shutdown_after? (hm : m.isLoop = false) (h : s.after? m = some s') :
    s'.shutdown = m.onSignal s.shutdown := by
  cases m with
  | loop => cases hm
  | work serial =>
    obtain ⟨d, -, rfl⟩ := Option.map_eq_some_iff.1 h
    rfl
  | register tag owner deadline payload =>
    cases h
    unfold registerEvent
    split
    · rfl
    · dsimp only
      split
      · rfl
      · exact shutdown_trigger _ tag
  | resetStale =>
    cases h
    unfold resetStale
    dsimp only
    split
    · rfl
    · exact shutdown_trigger _ "reset"
  | trigger hint =>
    cases h
    exact s.shutdown_trigger hint
  | pause c =>
    cases h
    unfold pauseClass
    split <;> rfl
  | resume c =>
    cases h
    unfold resumeClass
    split <;> rfl
  | start =>
    cases h
    unfold start
    split
    · dsimp only
      split <;> rfl
    · rfl
  | setPaused | act | elect | hinder | elapse | setClock | release | vanish | shutdown | abandon =>
    cases h
    rfl

/-- A step of the loop leaves the signal, or a loop that waits takes it up. -/
theorem shutdown_loopStep (h : s.loopStep = some s') :
    s'.shutdown = s.shutdown ∨
      s.loop.phase = .waiting ∧ ∃ news, s.shutdown.poll? = some (news, s'.shutdown) ∧
        (news = .stop → s'.loop.phase = .ended) := by
  unfold loopStep at h
  split at h
  · cases h
  · cases h
  · next hphase =>
    unfold wake? at h
    split at h
    · next hpoll =>
      cases h
      exact Or.inr ⟨hphase, .stop, hpoll, fun _ => rfl⟩
    · next hpoll =>
      cases h
      exact Or.inr ⟨hphase, .goOn, hpoll, nofun⟩
    · left
      split at h
      · cases h
        rfl
      · split at h
        · cases h
          rfl
        · split at h
          · cases h
            rfl
          · cases h
  · left
    split at h <;> cases h <;> rfl
  · cases h
    unfold beginCycle
    split <;> exact Or.inl rfl
  · cases h
    unfold finishCycle
    dsimp only
    split <;> exact Or.inl rfl
  · cases h
    exact Or.inl rfl

/-! ## What holds of the signal and of the requests -/

/-- The loop has not seen a value to stop unless it ended, and nobody receives requests
exactly if it did. -/
structure Wired (s : Service) : Prop where
  unseen : s.loop.phase ≠ .ended → s.shutdown.stop = true → s.shutdown.unseen = true
  closed : s.wakeups.closed = true → s.loop.phase = .ended
  ended : s.loop.phase = .ended → s.wakeups.closed = true

/-- A loop that ended never goes on. -/
theorem ended_after? (hended : s.loop.phase = .ended) (h : s.after? m = some s') :
    s'.loop.phase = .ended := by
  cases stirs_of_after? h with
  | rests _ hphase | requests _ _ hphase => exact hphase.trans hended
  | failsToStart _ hended' | stops _ _ hended' => exact hended'
  | starts hphase | isToldToGoOn hphase | receives _ hphase | wakes hphase | drains _ _ _ hphase
  | drained _ _ hphase | begins hphase | goesThrough _ _ _ _ hphase | finishes _ hphase =>
    rw [hended] at hphase
    cases hphase

/-- As the loop ends the requests are closed. -/
theorem closed_of_ends (hbefore : s.loop.phase ≠ .ended) (h : s.after? m = some s')
    (hended : s'.loop.phase = .ended) : s'.wakeups.closed = true := by
  cases stirs_of_after? h with
  | rests _ hphase | requests _ _ hphase => exact absurd (hphase.symm.trans hended) hbefore
  | begins _ hphase' => exact absurd hended hphase'
  | failsToStart hphase =>
    cases h
    unfold start at hended ⊢
    rw [hphase] at hended ⊢
    dsimp only at hended ⊢
    split
    · rfl
    · next htick =>
      rw [if_neg htick] at hended
      cases hended
  | stops hphase hpoll =>
    change s.loopStep = some s' at h
    simp only [loopStep, hphase, wake?, hpoll] at h
    rw [← Option.some.inj h]
    rfl
  | starts _ hphase' | isToldToGoOn _ _ hphase' | receives _ _ _ hphase' | wakes _ _ hphase'
  | drains _ _ _ _ _ hphase' | drained _ _ _ _ hphase' | goesThrough _ _ _ _ _ hphase'
  | finishes _ _ hphase' =>
    rw [hended] at hphase'
    cases hphase'

/-- Every move keeps the invariant. -/
theorem Wired.after? (h : s.Wired) (hafter : s.after? m = some s') : s'.Wired where
  unseen hrunning hstop := by
    have hbefore : s.loop.phase ≠ .ended := fun hended => hrunning (ended_after? hended hafter)
    cases hm : m.isLoop with
    | false =>
      rw [shutdown_after? hm hafter] at hstop ⊢
      exact m.unseen_onSignal (h.unseen hbefore) hstop
    | true =>
      cases m with
      | loop =>
        rcases shutdown_loopStep hafter with hsame | ⟨-, news, hpoll, hends⟩
        · rw [hsame] at hstop ⊢
          exact h.unseen hbefore hstop
        · cases news with
          | stop => exact absurd (hends rfl) hrunning
          | goOn =>
            obtain ⟨hsame, -, hgoOn⟩ := ShutdownSignal.poll?_eq_some hpoll
            rw [hsame, hgoOn rfl] at hstop
            cases hstop
      | _ => cases hm
  closed := ended_of_closed h.closed hafter
  ended hended := by
    by_cases hbefore : s.loop.phase = .ended
    · cases stirs_of_after? hafter with
      | rests _ _ hwakeups => exact hwakeups ▸ h.ended hbefore
      | requests hint _ _ hwakeups =>
        rw [hwakeups, Wakeups.closed_request]
        exact h.ended hbefore
      | failsToStart hphase | stops hphase | starts hphase | isToldToGoOn hphase
      | receives _ hphase | wakes hphase | drains _ _ _ hphase | drained _ _ hphase
      | begins hphase | goesThrough _ _ _ _ hphase | finishes _ hphase =>
        rw [hbefore] at hphase
        cases hphase
    · exact closed_of_ends hbefore hafter hended

theorem wired_of_reaches {allowed : Service → Move → Bool} {registry : Registry}
    {settings : Settings} {access : Access} {election : Election} {now : Instant}
    (h : Reaches allowed (.ofDispatcher (.initial registry settings access election now)) s) :
    s.Wired := by
  refine h.induct (P := Wired) ⟨?_, ?_, ?_⟩ fun _ _ _ hwired _ hafter => hwired.after? hafter
  · exact fun _ hstop => absurd hstop Bool.false_ne_true
  · exact fun hclosed => absurd hclosed Bool.false_ne_true
  · exact fun hended => nomatch hended

/-- Once the loop ended every request is refused. -/
theorem Wired.trigger_eq_false (h : s.Wired) (hended : s.loop.phase = .ended) (hint : String) :
    (s.trigger hint).1 = false := by
  unfold trigger Wakeups.request
  rw [if_pos (h.ended hended)]

/-! ## A loop that is to stop -/

/-- The signal goes on to say that the loop is to stop. -/
def staysToStop (s : Service) (m : Move) : Bool :=
  s.givesFresh m && (s.after? m).all fun s' => s'.shutdown.saysStop

/-- The loop took up a reason for a cycle, and has not gone through that cycle. -/
def isCycling (s : Service) : Bool :=
  match s.loop.phase with
  | .draining _ _ | .starting | .claiming _ _ => true
  | _ => false

/-- The loop took up a reason for a cycle, and has not begun that cycle. -/
def isAboutToBegin (s : Service) : Bool :=
  match s.loop.phase with
  | .draining _ _ | .starting => true
  | _ => false

theorem isCycling_of_isAboutToBegin (h : s.isAboutToBegin = true) : s.isCycling = true := by
  unfold isAboutToBegin at h
  unfold isCycling
  split at h
  · next hphase => rw [hphase]
  · next hphase => rw [hphase]
  · cases h

/-- A cycle that begins goes through its candidates, or it failed and the loop waits. -/
theorem phase_of_begins (hbegins : s.begins m = true) (h : s.after? m = some s') :
    s'.loop.phase = .waiting ∨ ∃ candidates, s'.loop.phase = .claiming candidates 0 := by
  obtain ⟨rfl, hphase⟩ := begins_iff.1 hbegins
  change s.loopStep = some s' at h
  simp only [loopStep, hphase] at h
  rw [← Option.some.inj h]
  unfold beginCycle
  split
  · exact Or.inl rfl
  · exact Or.inr ⟨_, rfl⟩

/-- Only a loop that was not started is to be started. -/
theorem started_of_loopStep (h : s.loopStep = some s') : s'.loop.phase ≠ .unstarted := by
  cases stirs_loopStep h with
  | rests hloop | requests _ hloop => cases hloop
  | begins hphase =>
    rcases phase_of_begins (begins_iff.2 ⟨rfl, hphase⟩) h with hphase' | ⟨_, hphase'⟩ <;>
      simp [hphase']
  | stops _ _ hphase' | isToldToGoOn _ _ hphase' | receives _ _ _ hphase' | wakes _ _ hphase'
  | drains _ _ _ _ _ hphase' | drained _ _ _ _ hphase' | goesThrough _ _ _ _ _ hphase'
  | finishes _ _ hphase' => simp [hphase']

/-- The number of cycles that begin as moves are made. -/
def beginnings (s : Service) : List Move → Nat
  | [] => 0
  | m :: rest => (s.begins m).toNat + ((s.after? m).map (beginnings · rest)).getD 0

/-- The loop is to stop. -/
structure Stopping (s : Service) : Prop where
  wired : s.Wired
  told : s.shutdown.saysStop = true

namespace Stopping

theorem after? (h : s.Stopping) (hm : s.staysToStop m = true) (hafter : s.after? m = some s') :
    s'.Stopping := by
  obtain ⟨-, htold⟩ := Bool.and_eq_true_iff.1 hm
  rw [hafter] at htold
  exact ⟨h.wired.after? hafter, htold⟩

theorem run (h : s.Stopping) (hrun : s.follow? staysToStop moves = some t) : t.Stopping :=
  (Reaches.refl.follow? hrun).induct (P := Stopping) h
    fun _ _ _ hbefore hm hafter => hbefore.after? hm hafter

/-- To take up the signal is not to take it back. -/
theorem loopStep (h : s.Stopping) (hstep : s.loopStep = some s') : s'.Stopping := by
  refine ⟨h.wired.after? (m := .loop) hstep, ?_⟩
  rcases shutdown_loopStep hstep with hsame | ⟨-, news, hpoll, -⟩
  · rw [hsame]
    exact h.told
  · obtain ⟨hstop, habandoned, -⟩ := ShutdownSignal.poll?_eq_some hpoll
    rw [ShutdownSignal.saysStop, hstop, habandoned]
    exact h.told

/-- A loop that waits takes up the signal, whatever else is there. -/
theorem exists_poll? (h : s.Stopping) (hphase : s.loop.phase = .waiting) :
    ∃ news shutdown, s.shutdown.poll? = some (news, shutdown) :=
  ShutdownSignal.exists_poll? h.told (h.wired.unseen (by simp [hphase]))

/-- So it ends, or it goes on waiting. -/
theorem isCycling_of_waiting (h : s.Stopping) (hphase : s.loop.phase = .waiting)
    (hstep : s.loopStep = some s') : s'.isCycling = false := by
  obtain ⟨news, shutdown, hpoll⟩ := h.exists_poll? hphase
  simp only [Service.loopStep, hphase, wake?, hpoll] at hstep
  cases news with
  | stop =>
    cases hstep
    rfl
  | goOn =>
    cases hstep
    simp [isCycling, hphase]

/-- A loop that runs has a next step. -/
theorem exists_loopStep (h : s.Stopping) (hrunning : s.isRunning = true) :
    ∃ s', s.loopStep = some s' := by
  unfold Service.loopStep
  split
  · next hphase => simp [isRunning, hphase] at hrunning
  · next hphase => simp [isRunning, hphase] at hrunning
  · next hphase =>
    obtain ⟨news, shutdown, hpoll⟩ := h.exists_poll? hphase
    unfold wake?
    rw [hpoll]
    cases news <;> exact ⟨_, rfl⟩
  · split <;> exact ⟨_, rfl⟩
  · exact ⟨_, rfl⟩
  · exact ⟨_, rfl⟩
  · exact ⟨_, rfl⟩

/-- Nothing takes the loop from its waiting to a cycle. -/
theorem isCycling_of_after? (h : s.Stopping) (hafter : s.after? m = some s')
    (hcycling : s'.isCycling = true) : s.isCycling = true := by
  cases stirs_of_after? hafter with
  | rests _ hphase | requests _ _ hphase =>
    unfold isCycling at hcycling ⊢
    rwa [hphase] at hcycling
  | failsToStart _ hphase' | stops _ _ hphase' | starts _ hphase' | isToldToGoOn _ _ hphase' =>
    simp [isCycling, hphase'] at hcycling
  | receives _ hphase | wakes hphase =>
    rw [h.isCycling_of_waiting hphase hafter] at hcycling
    cases hcycling
  | drains _ _ _ hphase | drained _ _ hphase | begins hphase | goesThrough _ _ _ _ hphase
  | finishes _ hphase => simp [isCycling, hphase]

/-- A cycle that is about to begin was about to begin before. -/
theorem isAboutToBegin_of_after? (h : s.Stopping) (hafter : s.after? m = some s')
    (habout : s'.isAboutToBegin = true) : s.isAboutToBegin = true := by
  cases stirs_of_after? hafter with
  | rests _ hphase | requests _ _ hphase =>
    unfold isAboutToBegin at habout ⊢
    rwa [hphase] at habout
  | failsToStart _ hphase' | stops _ _ hphase' | starts _ hphase' | isToldToGoOn _ _ hphase'
  | goesThrough _ _ _ _ _ hphase' | finishes _ _ hphase' =>
    simp [isAboutToBegin, hphase'] at habout
  | receives _ hphase | wakes hphase =>
    have hnot := h.isCycling_of_waiting hphase hafter
    rw [isCycling_of_isAboutToBegin habout] at hnot
    cases hnot
  | drains _ _ _ hphase | drained _ _ hphase | begins hphase => simp [isAboutToBegin, hphase]

/-- A cycle that begins is one that was about to, and none is about to begin after it. -/
theorem begins_le (h : s.Stopping) (hafter : s.after? m = some s') :
    (s.begins m).toNat + s'.isAboutToBegin.toNat ≤ s.isAboutToBegin.toNat := by
  by_cases hbegins : s.begins m = true
  · have hnot : s'.isAboutToBegin = false := by
      rcases phase_of_begins hbegins hafter with hphase' | ⟨_, hphase'⟩ <;>
        simp [isAboutToBegin, hphase']
    have habout : s.isAboutToBegin = true := by
      simp [isAboutToBegin, (begins_iff.1 hbegins).2]
    rw [hbegins, hnot, habout]
    exact Nat.le_refl _
  · rw [Bool.eq_false_iff.2 hbegins, Bool.toNat_false, Nat.zero_add]
    cases habout : s'.isAboutToBegin with
    | false => exact Nat.zero_le _
    | true => exact Nat.le_of_eq (by rw [h.isAboutToBegin_of_after? hafter habout])

/-- Of the moves of a run, none begins a cycle but one for which the loop was under way. -/
theorem beginnings_le (h : s.Stopping) (hrun : s.follow? staysToStop moves = some t) :
    s.beginnings moves + t.isAboutToBegin.toNat ≤ s.isAboutToBegin.toNat := by
  induction moves generalizing s with
  | nil =>
    cases hrun
    exact Nat.le_of_eq (Nat.zero_add _)
  | cons m rest ih =>
    simp only [follow?] at hrun
    split at hrun
    · next hm =>
      obtain ⟨s', hafter, hrest⟩ := Option.bind_eq_some_iff.1 hrun
      have hone := h.begins_le hafter
      have hmore := ih (h.after? hm hafter) hrest
      rw [beginnings, hafter, Option.map_some, Option.getD_some]
      omega
    · cases hrun

end Stopping

/-! ## Nothing is claimed -/

/-- Outside of a cycle nothing is listed. -/
theorem candidates_of_not_isCycling (h : s.isCycling = false) : s.candidates = [] := by
  unfold isCycling at h
  unfold candidates
  split
  · next hphase => simp [hphase] at h
  · rfl

theorem claimOf_of_candidates_eq_nil (h : s.candidates = []) (m : Move) : s.claimOf m = [] := by
  unfold claimOf
  split
  · split
    · next hphase =>
      rw [candidates_of_claiming hphase] at h
      cases h
    · rfl
  · rfl

/-- No worker was started, and whatever is being run was being run before. -/
structure ClaimsNothing (s s' : Service) : Prop where
  started : s'.dispatcher.started = s.dispatcher.started
  running : ∀ e' ∈ s'.dispatcher.store.events, e'.status = .processing →
    ∃ e ∈ s.dispatcher.store.events, e.id = e'.id ∧ e.status = .processing

theorem ClaimsNothing.trans (h : s.ClaimsNothing s') (h' : s'.ClaimsNothing t) :
    s.ClaimsNothing t where
  started := h'.started.trans h.started
  running e he hrun := by
    obtain ⟨e', he', hid', hrun'⟩ := h'.running e he hrun
    obtain ⟨e'', he'', hid'', hrun''⟩ := h.running e' he' hrun'
    exact ⟨e'', he'', hid''.trans hid', hrun''⟩

/-- Where nothing is listed a move claims nothing. -/
theorem claimsNothing_after? (hids : s.dispatcher.store.DistinctIds)
    (hnothing : s.candidates = []) (hfresh : s.givesFresh m = true)
    (h : s.after? m = some s') : s.ClaimsNothing s' := by
  have hstep := step_of_after? hfresh h
  refine ⟨?_, fun e' he' hrun => ?_⟩
  · change s'.core.started = s.core.started
    generalize s'.core = c' at hstep
    cases hstep with
    | claimed hcandidates =>
      rw [show s.core.candidates = [] from hnothing] at hcandidates
      cases hcandidates
    | opened =>
      unfold Core.lead
      split <;> rfl
    | _ => rfl
  · rcases hstep.writes with hsame | ⟨call, hstore, -, hends, hclaim⟩
    · exact ⟨e', (show s'.dispatcher.store = s.dispatcher.store from hsame) ▸ he', rfl, hrun⟩
    · rw [show s'.dispatcher.store = s.dispatcher.store.after call from hstore] at he'
      rcases (Store.mem_after hids).1 he' with ⟨e, he, rfl⟩ | hrecorded
      · refine ⟨e, he, (Store.id_effectOn _ _ _).symm, ?_⟩
        refine (Store.processing_or_claimed hends hrun).resolve_right ?_
        rintro ⟨⟨clock, hclaims⟩, -⟩
        obtain ⟨x, hx, -⟩ := hclaim clock e.id hclaims
        rw [show s.core.candidates = [] from hnothing] at hx
        cases hx
      · rw [Store.Call.status_of_mem_recorded hrecorded] at hrun
        cases hrun

namespace Stopping

/-- Once the loop has gone through its cycle, nothing is claimed, whatever moves are made. -/
theorem run_claims_nothing (h : s.Stopping) (hids : s.dispatcher.store.DistinctIds)
    (hquiet : s.isCycling = false) (hrun : s.follow? staysToStop moves = some t) :
    t.isCycling = false ∧ s.claims moves = [] ∧ s.ClaimsNothing t := by
  induction moves generalizing s with
  | nil =>
    cases hrun
    exact ⟨hquiet, rfl, rfl, fun e he hrun => ⟨e, he, rfl, hrun⟩⟩
  | cons m rest ih =>
    simp only [follow?] at hrun
    split at hrun
    · next hm =>
      obtain ⟨s', hafter, hrest⟩ := Option.bind_eq_some_iff.1 hrun
      obtain ⟨hfresh, -⟩ := Bool.and_eq_true_iff.1 hm
      have hnothing := candidates_of_not_isCycling hquiet
      have hquiet' : s'.isCycling = false := by
        refine Bool.eq_false_iff.2 fun hcycling => ?_
        rw [h.isCycling_of_after? hafter hcycling] at hquiet
        cases hquiet
      have hids' := ((step_of_after? hfresh hafter).writes.later hids).2
      obtain ⟨hend, hclaims, hclaimsNothing⟩ := ih (h.after? hm hafter) hids' hquiet' hrest
      refine ⟨hend, ?_, (claimsNothing_after? hids hnothing hfresh hafter).trans hclaimsNothing⟩
      rw [Service.claims, hafter, Option.map_some, Option.getD_some, hclaims,
        claimOf_of_candidates_eq_nil hnothing, List.append_nil]
    · cases hrun

/-! ## The loop ends -/

/-- A loop that was started ends if it goes on. -/
theorem ended_runLoop (h : s.Stopping) (hstarted : s.loop.phase ≠ .unstarted) :
    s.runLoop.loop.phase = .ended := by
  induction s using runLoop.induct with
  | case1 s hstep =>
    have hrun : s.runLoop = s := by
      rw [runLoop]
      split <;> simp_all
    rw [hrun]
    by_contra hended
    have hrunning : s.isRunning = true := by
      unfold isRunning
      split
      · next hphase => exact absurd hphase hstarted
      · next hphase => exact absurd hphase hended
      · rfl
    obtain ⟨s', hnext⟩ := h.exists_loopStep hrunning
    rw [hstep] at hnext
    cases hnext
  | case2 s s' hstep _ ih =>
    have hrun : s.runLoop = s'.runLoop := by
      rw [runLoop]
      split <;> simp_all
    rw [hrun]
    exact ih (h.loopStep hstep) (started_of_loopStep hstep)

end Stopping

end Service
end EventDispatch
