import EventDispatch.Proofs.Run.Lasting
import EventDispatch.Proofs.Run.Origins

/-!
# No request is lost

**Input.** Any run of a service.  Callers request cycles, register events and send
expired events back at any point: while a cycle goes on, while the loop takes the
requests that wait together, and however many requests wait already.

**Algorithm.** A full queue drops a request, and the loop takes all that wait at once.
`Stirs` says once what each move does to the phase of the loop, to the queue and to the
signal to stop.

**Invariant.** After a request that was granted, and as long as no cycle began, the
queue is not empty, or the loop received a request since, or it ended (`Awaits`).

**Results.** Every move keeps this (`Awaits.after?`), so a loop that runs has a next step
(`Awaits.exists_loopStep`).  The steps to the next cycle are counted: each step of the
loop takes one off, each call adds at most one (`untilCycle_after?`).  So the cycle comes,
and it lists from a store with every event whose registration was answered before.
-/

namespace EventDispatch

namespace Wakeups

variable {w : Wakeups}

theorem queue_ne_nil_request (h : w.queue ≠ []) (hint : String) :
    (w.request hint).2.queue ≠ [] := by
  unfold request
  split
  · exact h
  · split
    · exact List.append_ne_nil_of_right_ne_nil _ (by simp)
    · exact h

theorem closed_request (w : Wakeups) (hint : String) :
    (w.request hint).2.closed = w.closed := by
  unfold request
  split
  · rfl
  · split <;> rfl

theorem length_request_le (w : Wakeups) (hint : String) :
    (w.request hint).2.queue.length ≤ w.queue.length + 1 := by
  unfold request
  split
  · exact Nat.le_succ _
  · split
    · simp
    · exact Nat.le_succ _

theorem receive?_eq_none_iff : w.receive? = none ↔ w.queue = [] := by
  unfold receive?
  split <;> simp_all

theorem receive?_eq_some {w' : Wakeups} {hint : String} (h : w.receive? = some (hint, w')) :
    w.queue = hint :: w'.queue ∧ w'.closed = w.closed := by
  unfold receive? at h
  split at h
  · cases h
  · next hqueue =>
    cases h
    exact ⟨hqueue, rfl⟩

end Wakeups

/-- A call that requests a cycle, or sends the signal to stop. -/
def Move.isCall : Move → Bool
  | .trigger _ => true
  | .register _ _ _ _ => true
  | .resetStale => true
  | .shutdown _ => true
  | _ => false

/-- A step of the loop. -/
def Move.isLoop : Move → Bool
  | .loop => true
  | _ => false

theorem Move.isLoop_of_isCall {m : Move} (h : m.isCall = true) : m.isLoop = false := by
  cases m <;> first | rfl | cases h

namespace Service

/-! ## What a move does to the loop and to the requests -/

/-- Whether a move requests a cycle: it asks for one and is told that there is a loop to run
it, or it registers an event, or sends expired events back. -/
def asks (s : Service) : Move → Bool
  | .trigger hint => (s.trigger hint).1
  | .register tag owner deadline payload =>
    (s.registerEvent tag owner deadline payload).1.isOk
  | .resetStale => s.resetStale.1.isOk
  | _ => false

/-- What a move does to the loop, to the requests that wait and to the signal to stop. -/
inductive Stirs (s : Service) : Move → Service → Prop
  | rests {m : Move} {s' : Service} :
      m.isLoop = false →
      s'.loop.phase = s.loop.phase →
      s'.wakeups = s.wakeups →
      s'.shutdown.unseen.toNat ≤ s.shutdown.unseen.toNat + m.isCall.toNat →
      Stirs s m s'
  | requests {m : Move} {s' : Service} (hint : String) :
      m.isCall = true →
      s'.loop.phase = s.loop.phase →
      s'.wakeups = (s.wakeups.request hint).2 →
      s'.shutdown = s.shutdown →
      Stirs s m s'
  | starts {s' : Service} :
      s.loop.phase = .unstarted →
      s'.loop.phase = .waiting →
      s'.wakeups = s.wakeups →
      s'.shutdown = s.shutdown →
      Stirs s .start s'
  | failsToStart {s' : Service} :
      s.loop.phase = .unstarted →
      s'.loop.phase = .ended →
      Stirs s .start s'
  | stops {s' : Service} :
      s.loop.phase = .waiting →
      s.shutdown.poll? = some (.stop, s'.shutdown) →
      s'.loop.phase = .ended →
      Stirs s .loop s'
  | isToldToGoOn {s' : Service} :
      s.loop.phase = .waiting →
      s.shutdown.unseen = true →
      s'.loop.phase = .waiting →
      s'.wakeups = s.wakeups →
      s'.shutdown.unseen = false →
      Stirs s .loop s'
  | receives {s' : Service} (hint : String) :
      s.loop.phase = .waiting →
      s.wakeups.receive? = some (hint, s'.wakeups) →
      s'.loop.phase = .draining hint 0 →
      Stirs s .loop s'
  | wakes {s' : Service} :
      s.loop.phase = .waiting →
      s.wakeups.receive? = none →
      s'.loop.phase = .starting →
      s'.wakeups = s.wakeups →
      Stirs s .loop s'
  | drains {s' : Service} (hint : String) (coalesced : Nat) (next : String) :
      s.loop.phase = .draining hint coalesced →
      s.wakeups.receive? = some (next, s'.wakeups) →
      s'.loop.phase = .draining hint (coalesced + 1) →
      Stirs s .loop s'
  | drained {s' : Service} (hint : String) (coalesced : Nat) :
      s.loop.phase = .draining hint coalesced →
      s.wakeups.receive? = none →
      s'.loop.phase = .starting →
      s'.wakeups = s.wakeups →
      Stirs s .loop s'
  | begins {s' : Service} :
      s.loop.phase = .starting →
      s'.loop.phase ≠ .ended →
      s'.wakeups = s.wakeups →
      Stirs s .loop s'
  | goesThrough {s' : Service} (e : Event) (rest : List Event) (count count' : Nat) :
      s.loop.phase = .claiming (e :: rest) count →
      s'.loop.phase = .claiming rest count' →
      s'.wakeups = s.wakeups →
      s'.shutdown = s.shutdown →
      Stirs s .loop s'
  | finishes {s' : Service} (count : Nat) :
      s.loop.phase = .claiming [] count →
      s'.loop.phase = .waiting →
      s'.wakeups = s.wakeups →
      s'.shutdown = s.shutdown →
      Stirs s .loop s'

section Stirring

variable {s s' : Service} {m : Move}

theorem stirs_wake (hphase : s.loop.phase = .waiting) (h : s.wake? = some s') :
    s.Stirs .loop s' := by
  unfold wake? at h
  split at h
  · next hpoll =>
    cases h
    exact .stops hphase hpoll rfl
  · next hpoll =>
    cases h
    unfold ShutdownSignal.poll? at hpoll
    split at hpoll
    · next hunseen =>
      simp only [Option.some.injEq, Prod.mk.injEq] at hpoll
      obtain ⟨-, rfl⟩ := hpoll
      exact .isToldToGoOn hphase hunseen hphase rfl rfl
    · split at hpoll <;> cases hpoll
  · split at h
    · next hint wakeups hreceive =>
      cases h
      exact .receives hint hphase hreceive rfl
    · next hreceive =>
      split at h
      · cases h
        exact .wakes hphase hreceive rfl rfl
      · split at h
        · cases h
          exact .wakes hphase hreceive rfl rfl
        · cases h

theorem stirs_loopStep (h : s.loopStep = some s') : s.Stirs .loop s' := by
  unfold loopStep at h
  split at h
  · cases h
  · cases h
  · next hphase => exact stirs_wake hphase h
  · next hint coalesced hphase =>
    split at h
    · next hreceive =>
      cases h
      exact .drains hint coalesced _ hphase hreceive rfl
    · next hreceive =>
      cases h
      exact .drained hint coalesced hphase hreceive rfl rfl
  · next hphase =>
    cases h
    unfold beginCycle
    split <;> exact .begins hphase nofun rfl
  · next count hphase =>
    cases h
    unfold finishCycle
    dsimp only
    split <;> exact .finishes count hphase rfl rfl rfl
  · next e rest count hphase =>
    cases h
    exact .goesThrough e rest count _ hphase rfl rfl rfl

/-- A call requests a cycle, or has no effect on the loop and on the requests. -/
theorem stirs_trigger {recorded : Service} (hcall : m.isCall = true) (hint : String)
    (hloop : recorded.loop = s.loop) (hwakeups : recorded.wakeups = s.wakeups)
    (hshutdown : recorded.shutdown = s.shutdown) : s.Stirs m (recorded.trigger hint).2 := by
  refine .requests hint hcall ?_ ?_ ?_
  all_goals
    unfold trigger
    split <;> simp_all [tell]

theorem stirs_start (s : Service) : s.Stirs .start s.start := by
  unfold start
  split
  · next hphase =>
    dsimp only
    split
    · exact .failsToStart hphase rfl
    · exact .starts hphase rfl rfl rfl
  · exact .rests rfl rfl rfl (Nat.le_add_right _ _)

/-- What every move does to the loop and to the requests. -/
theorem stirs_of_after? (h : s.after? m = some s') : s.Stirs m s' := by
  cases m with
  | loop => exact stirs_loopStep h
  | work serial =>
    obtain ⟨d, -, rfl⟩ := Option.map_eq_some_iff.1 h
    exact .rests rfl rfl rfl (Nat.le_add_right _ _)
  | register tag owner deadline payload =>
    cases h
    unfold registerEvent
    split
    · exact .rests rfl rfl rfl (Nat.le_add_right _ _)
    · dsimp only
      split
      · exact .rests rfl rfl rfl (Nat.le_add_right _ _)
      · exact stirs_trigger rfl tag rfl rfl rfl
  | resetStale =>
    cases h
    unfold resetStale
    dsimp only
    split
    · exact .rests rfl rfl rfl (Nat.le_add_right _ _)
    · exact stirs_trigger rfl "reset" rfl rfl rfl
  | trigger hint =>
    cases h
    exact stirs_trigger rfl hint rfl rfl rfl
  | pause c =>
    cases h
    unfold pauseClass
    split <;> exact .rests rfl rfl rfl (Nat.le_add_right _ _)
  | resume c =>
    cases h
    unfold resumeClass
    split <;> exact .rests rfl rfl rfl (Nat.le_add_right _ _)
  | start =>
    cases h
    exact s.stirs_start
  | shutdown stop =>
    cases h
    refine .rests rfl rfl rfl ?_
    exact Nat.le_trans (Bool.toNat_le _) (Nat.le_add_left _ _)
  | act | setPaused | elect | hinder | elapse | setClock | release | vanish | abandon =>
    cases h
    exact .rests rfl rfl rfl (Nat.le_add_right _ _)

/-- A request for a cycle is in the queue, unless there is nobody to receive it. -/
theorem queue_ne_nil_of_asks (hasks : s.asks m = true) (hopen : s.wakeups.closed = false)
    (h : s.after? m = some s') : s'.wakeups.queue ≠ [] := by
  have hgranted : ∀ (recorded : Service) (hint : String), recorded.wakeups = s.wakeups →
      (recorded.trigger hint).2.wakeups.queue ≠ [] := by
    intro recorded hint hsame
    unfold trigger
    split
    · next hrequest => exact Wakeups.queue_ne_nil_of_request hrequest
    · next hrequest =>
      rw [hsame] at hrequest
      unfold Wakeups.request at hrequest
      rw [hopen, if_neg Bool.false_ne_true] at hrequest
      split at hrequest <;> cases hrequest
  cases m with
  | trigger hint =>
    cases h
    exact hgranted s hint rfl
  | register tag owner deadline payload =>
    cases h
    unfold asks at hasks
    unfold registerEvent at hasks ⊢
    split
    · cases hasks
    · dsimp only at hasks ⊢
      split
      · next hinsert =>
        rw [hinsert] at hasks
        cases hasks
      · exact hgranted _ tag rfl
  | resetStale =>
    cases h
    unfold asks at hasks
    unfold resetStale at hasks ⊢
    dsimp only at hasks ⊢
    split
    · next hreset =>
      rw [hreset] at hasks
      cases hasks
    · exact hgranted _ "reset" rfl
  | _ => cases hasks

/-- Nobody receives requests any more only once the loop ended. -/
theorem ended_of_closed (hclosed : s.wakeups.closed = true → s.loop.phase = .ended)
    (h : s.after? m = some s') : s'.wakeups.closed = true → s'.loop.phase = .ended := by
  intro hclosed'
  have hopen : ∀ {phase : Phase}, s.loop.phase = phase → phase ≠ .ended →
      s.wakeups.closed ≠ true :=
    fun hphase hne htrue => hne (hphase.symm.trans (hclosed htrue))
  cases stirs_of_after? h with
  | rests _ hphase hwakeups =>
    rw [hphase]
    exact hclosed (hwakeups ▸ hclosed')
  | requests hint _ hphase hwakeups =>
    rw [hphase]
    rw [hwakeups, Wakeups.closed_request] at hclosed'
    exact hclosed hclosed'
  | failsToStart _ hended | stops _ _ hended => exact hended
  | starts hphase _ hwakeups | isToldToGoOn hphase _ _ hwakeups | wakes hphase _ _ hwakeups
  | drained _ _ hphase _ _ hwakeups | begins hphase _ hwakeups
  | goesThrough _ _ _ _ hphase _ hwakeups | finishes _ hphase _ hwakeups =>
    exact absurd (hwakeups ▸ hclosed') (hopen hphase nofun)
  | receives _ hphase hreceive | drains _ _ _ hphase hreceive =>
    rw [(Wakeups.receive?_eq_some hreceive).2] at hclosed'
    exact absurd hclosed' (hopen hphase nofun)

/-- A loop that runs ends only as it takes up the signal to stop. -/
theorem stops_of_ends (hrunning : s.isRunning = true) (h : s.after? m = some s')
    (hended : s'.loop.phase = .ended) :
    m = .loop ∧ ∃ shutdown, s.shutdown.poll? = some (.stop, shutdown) := by
  cases stirs_of_after? h with
  | stops _ hpoll => exact ⟨rfl, _, hpoll⟩
  | rests _ hphase | requests _ _ hphase =>
    rw [hended] at hphase
    simp [isRunning, ← hphase] at hrunning
  | failsToStart hphase => simp [isRunning, hphase] at hrunning
  | begins _ hphase' => exact absurd hended hphase'
  | starts _ hphase' | isToldToGoOn _ _ hphase' | receives _ _ _ hphase' | wakes _ _ hphase'
  | drains _ _ _ _ _ hphase' | drained _ _ _ _ hphase' | goesThrough _ _ _ _ _ hphase'
  | finishes _ _ hphase' =>
    rw [hended] at hphase'
    cases hphase'

end Stirring

/-! ## What is awaited -/

/-- The loop received a request and takes those that wait behind it. -/
def isDraining (s : Service) : Bool :=
  match s.loop.phase with
  | .draining _ _ => true
  | _ => false

/-- The loop received a request since some point of the run, and has not begun its next
cycle. -/
structure HasReceived (allowed : Service → Move → Bool) (asked s : Service) : Prop where
  holds : s.isDraining = true ∨ s.loop.phase = .starting
  received : ∃ receiving, Reaches (goesOn allowed) asked receiving ∧
    receiving.isDraining = true ∧ Reaches (goesOn allowed) receiving s

/-- A cycle is requested, or the loop received a request for it, unless the loop ended. -/
inductive Awaits (allowed : Service → Move → Bool) (asked s : Service) : Prop
  | ended : s.loop.phase = .ended → Awaits allowed asked s
  | queued : s.wakeups.queue ≠ [] → Awaits allowed asked s
  | received : HasReceived allowed asked s → Awaits allowed asked s

section Awaiting

variable {allowed : Service → Move → Bool} {asked s s' : Service} {m : Move}

theorem isDraining_iff :
    s.isDraining = true ↔ ∃ hint coalesced, s.loop.phase = .draining hint coalesced := by
  unfold isDraining
  constructor
  · intro h
    split at h
    · next hint coalesced hphase => exact ⟨hint, coalesced, hphase⟩
    · cases h
  · rintro ⟨hint, coalesced, hphase⟩
    rw [hphase]

theorem isDraining_of_phase {hint : String} {coalesced : Nat}
    (h : s.loop.phase = .draining hint coalesced) : s.isDraining = true :=
  isDraining_iff.2 ⟨hint, coalesced, h⟩

theorem isDraining_congr (h : s'.loop.phase = s.loop.phase) : s'.isDraining = s.isDraining := by
  unfold isDraining
  rw [h]

/-- What the loop received it holds until it begins a cycle. -/
theorem HasReceived.move (h : HasReceived allowed asked s) (hm : goesOn allowed s m = true)
    (hafter : s.after? m = some s') (hphase : s'.loop.phase = s.loop.phase) :
    HasReceived allowed asked s' := by
  obtain ⟨hholds, receiving, hbefore, hdrains, hsince⟩ := h
  refine ⟨?_, receiving, hbefore, hdrains, .move m hsince hm hafter⟩
  rw [isDraining_congr hphase, hphase]
  exact hholds

/-- Unless the loop ended or received a request, a request waits. -/
theorem Awaits.queue_ne_nil (h : Awaits allowed asked s)
    (hidle : s.loop.phase ≠ .ended ∧ s.isDraining = false ∧ s.loop.phase ≠ .starting) :
    s.wakeups.queue ≠ [] := by
  obtain ⟨hnotEnded, hnotDraining, hnotStarting⟩ := hidle
  cases h with
  | ended hended => exact absurd hended hnotEnded
  | queued hqueue => exact hqueue
  | received hreceived =>
    rcases hreceived.holds with hdrains | hstarting
    · rw [hnotDraining] at hdrains
      cases hdrains
    · exact absurd hstarting hnotStarting

/-- Every move that begins no cycle keeps what is awaited. -/
theorem Awaits.after? (h : Awaits allowed asked s) (hreach : Reaches (goesOn allowed) asked s)
    (hm : goesOn allowed s m = true) (hafter : s.after? m = some s') :
    Awaits allowed asked s' := by
  have hreach' : Reaches (goesOn allowed) asked s' := .move m hreach hm hafter
  cases stirs_of_after? hafter with
  | rests _ hphase hwakeups =>
    cases h with
    | ended hended => exact .ended (hphase.trans hended)
    | queued hqueue => exact .queued (hwakeups ▸ hqueue)
    | received hreceived => exact .received (hreceived.move hm hafter hphase)
  | requests hint _ hphase hwakeups =>
    cases h with
    | ended hended => exact .ended (hphase.trans hended)
    | queued hqueue => exact .queued (hwakeups ▸ Wakeups.queue_ne_nil_request hqueue hint)
    | received hreceived => exact .received (hreceived.move hm hafter hphase)
  | failsToStart _ hended | stops _ _ hended => exact .ended hended
  | starts hphase _ hwakeups | isToldToGoOn hphase _ _ hwakeups
  | goesThrough _ _ _ _ hphase _ hwakeups | finishes _ hphase _ hwakeups =>
    exact .queued (hwakeups ▸ h.queue_ne_nil (by simp [isDraining, hphase]))
  | wakes hphase hempty =>
    exact absurd (Wakeups.receive?_eq_none_iff.1 hempty)
      (h.queue_ne_nil (by simp [isDraining, hphase]))
  | receives hint _ _ hdrains =>
    have hdraining := isDraining_of_phase hdrains
    exact .received ⟨Or.inl hdraining, s', hreach', hdraining, .refl⟩
  | drains hint coalesced next _ _ hdrains =>
    have hdraining := isDraining_of_phase hdrains
    exact .received ⟨Or.inl hdraining, s', hreach', hdraining, .refl⟩
  | drained hint coalesced hphase _ hstarting =>
    exact .received ⟨Or.inr hstarting, s, hreach, isDraining_of_phase hphase,
      .move .loop .refl hm hafter⟩
  | begins hphase =>
    have hbegins := (Bool.and_eq_true_iff.1 hm).2
    rw [begins_iff.2 ⟨rfl, hphase⟩] at hbegins
    cases hbegins

theorem awaits_of_asks {before : Service}
    (hclosed : before.wakeups.closed = true → before.loop.phase = .ended)
    (hasks : before.asks m = true) (hafter : before.after? m = some asked)
    (hreach : Reaches (goesOn allowed) asked s) : Awaits allowed asked s := by
  induction hreach with
  | refl =>
    by_cases hshut : before.wakeups.closed = true
    -- nobody receives requests any more, so the loop ended before this one
    · have hended := hclosed hshut
      cases stirs_of_after? hafter with
      | rests _ hphase | requests _ _ hphase => exact .ended (hphase.trans hended)
      | _ => cases hasks
    · exact .queued (queue_ne_nil_of_asks hasks (Bool.eq_false_iff.2 hshut) hafter)
  | move m hbefore hm hmoved ih => exact ih.after? hbefore hm hmoved

/-- A loop that runs while a cycle is awaited has a next step. -/
theorem Awaits.exists_loopStep (h : Awaits allowed asked s) (hrunning : s.isRunning = true) :
    ∃ s', s.after? .loop = some s' := by
  change ∃ s', s.loopStep = some s'
  unfold loopStep
  split
  · next hphase => simp [isRunning, hphase] at hrunning
  · next hphase => simp [isRunning, hphase] at hrunning
  · next hphase =>
    have hqueue := h.queue_ne_nil (by simp [isDraining, hphase])
    obtain ⟨hint, rest, hqueue⟩ := List.exists_cons_of_ne_nil hqueue
    unfold wake? Wakeups.receive?
    rw [hqueue]
    split <;> exact ⟨_, rfl⟩
  · split <;> exact ⟨_, rfl⟩
  · exact ⟨_, rfl⟩
  · exact ⟨_, rfl⟩
  · exact ⟨_, rfl⟩

end Awaiting

/-! ## The steps to the next cycle -/

/-- The steps that the loop makes before its next cycle begins, if nothing is called. -/
def untilCycle (s : Service) : Nat :=
  match s.loop.phase with
  | .unstarted => s.wakeups.queue.length + s.shutdown.unseen.toNat + 2
  | .waiting => s.wakeups.queue.length + s.shutdown.unseen.toNat + 2
  | .draining _ _ => s.wakeups.queue.length + 2
  | .starting => 1
  | .claiming candidates _ =>
    candidates.length + s.wakeups.queue.length + s.shutdown.unseen.toNat + 3
  | .ended => 0

section Counting

variable {allowed : Service → Move → Bool} {s s' : Service} {m : Move}

/-- Unless it begins a cycle, a step of the loop takes one off the steps to the next one; a
call adds at most one. -/
theorem untilCycle_after? (hm : s.begins m = false) (h : s.after? m = some s') :
    s'.untilCycle + m.isLoop.toNat ≤ s.untilCycle + m.isCall.toNat := by
  unfold untilCycle
  cases stirs_of_after? h with
  | rests hloop hphase hwakeups hunseen =>
    rw [hphase, hwakeups, hloop, Bool.toNat_false]
    split <;> omega
  | requests hint hcall hphase hwakeups hshutdown =>
    have hlength := s.wakeups.length_request_le hint
    rw [hphase, hwakeups, hshutdown, hcall, Move.isLoop_of_isCall hcall, Bool.toNat_false,
      Bool.toNat_true]
    split <;> omega
  | starts hphase hphase' hwakeups hshutdown =>
    rw [hphase, hphase', hwakeups, hshutdown]
    exact Nat.le_refl _
  | failsToStart hphase hended =>
    rw [hended]
    exact Nat.zero_le _
  | stops hphase _ hended =>
    rw [hphase, hended]
    simp only [Move.isLoop, Bool.toNat_true]
    omega
  | isToldToGoOn hphase hunseen hphase' hwakeups hunseen' =>
    rw [hphase, hphase', hwakeups, hunseen, hunseen']
    simp [Move.isLoop]
  | receives hint hphase hreceive hphase' =>
    rw [hphase, hphase', (Wakeups.receive?_eq_some hreceive).1]
    simp only [Move.isLoop, Bool.toNat_true, List.length_cons]
    omega
  | wakes hphase _ hphase' =>
    rw [hphase, hphase']
    simp only [Move.isLoop, Bool.toNat_true]
    omega
  | drains hint coalesced next hphase hreceive hphase' =>
    rw [hphase, hphase', (Wakeups.receive?_eq_some hreceive).1]
    simp only [Move.isLoop, Bool.toNat_true, List.length_cons]
    omega
  | drained hint coalesced hphase _ hphase' =>
    rw [hphase, hphase']
    simp only [Move.isLoop, Bool.toNat_true]
    omega
  | begins hphase =>
    rw [begins_iff.2 ⟨rfl, hphase⟩] at hm
    cases hm
  | goesThrough e rest count count' hphase hphase' hwakeups hshutdown =>
    rw [hphase, hphase', hwakeups, hshutdown]
    simp only [Move.isLoop, Bool.toNat_true, List.length_cons]
    omega
  | finishes count hphase hphase' hwakeups hshutdown =>
    rw [hphase, hphase', hwakeups, hshutdown]
    simp only [Move.isLoop, Bool.toNat_true, List.length_nil]
    omega

/-- A run begins a cycle, or the steps of its loop are counted by the steps to the next
cycle and the calls. -/
theorem begins_or_counts {moves : List Move} (hrun : s.follow? allowed moves = some s') :
    (∃ before rest begun listing, moves = before ++ .loop :: rest ∧
      s.follow? (goesOn allowed) before = some begun ∧ begun.loop.phase = .starting ∧
      allowed begun .loop = true ∧ begun.after? .loop = some listing) ∨
      s.follow? (goesOn allowed) moves = some s' ∧
      s'.untilCycle + moves.countP Move.isLoop ≤ s.untilCycle + moves.countP Move.isCall := by
  induction moves generalizing s with
  | nil =>
    cases hrun
    exact Or.inr ⟨rfl, Nat.le_refl _⟩
  | cons m rest ih =>
    simp only [follow?] at hrun
    split at hrun
    · next hm =>
      obtain ⟨t, hafter, hrest⟩ := Option.bind_eq_some_iff.1 hrun
      by_cases hbegins : s.begins m = true
      · obtain ⟨rfl, hphase⟩ := begins_iff.1 hbegins
        exact Or.inl ⟨[], rest, s, t, rfl, rfl, hphase, hm, hafter⟩
      · have hnot : s.begins m = false := Bool.eq_false_iff.2 hbegins
        have hgoesOn : goesOn allowed s m = true := by simp [goesOn, hm, hnot]
        have hstep : ∀ moves, s.follow? (goesOn allowed) (m :: moves) =
            t.follow? (goesOn allowed) moves := by
          intro moves
          simp [follow?, hgoesOn, hafter]
        rcases ih hrest with ⟨before, after, begun, listing, rfl, hbefore, hbegun⟩ |
          ⟨hquiet, hcount⟩
        · exact Or.inl ⟨m :: before, after, begun, listing, rfl, (hstep before).trans hbefore,
            hbegun⟩
        · refine Or.inr ⟨(hstep rest).trans hquiet, ?_⟩
          have hone := untilCycle_after? hnot hafter
          simp only [List.countP_cons]
          cases hl : m.isLoop <;> cases hc : m.isCall <;> simp [hl, hc] at hone ⊢ <;> omega
    · cases hrun

end Counting

/-! ## No request is lost -/

section Result

variable {s asked : Service} {m : Move}

/-- The cycle that begins here goes through the events that the store has ready. -/
def GoesThrough (begun listing : Service) : Prop :=
  listing.loop.phase = .claiming
    (listing.dispatcher.store.dispatchable
      (begun.dispatcher.registry.filterFor begun.pauses.classes) begun.dispatcher.now) 0

/-- A cycle that has the lead and reaches the store goes through the events there. -/
theorem goesThrough_of_leads {begun listing : Service} (hphase : begun.loop.phase = .starting)
    (h : begun.after? .loop = some listing)
    (hleads : begun.dispatcher.election.answer = .ok true)
    (haccess : begun.dispatcher.access = .unhindered) : begun.GoesThrough listing := by
  have hbegin : begun.beginCycle = listing := by
    change begun.loopStep = some listing at h
    simpa only [loopStep, hphase, Option.some.injEq] using h
  rw [← hbegin]
  unfold beginCycle Dispatcher.openCycle Dispatcher.checkLead GoesThrough
  rw [hleads, haccess]
  by_cases hleading : begun.dispatcher.leading = true
  · simp only [hleading, if_true]
    rw [haccess]
    rfl
  · simp only [hleading]
    rfl

variable {registry : Registry} {settings : Settings} {access : Access} {election : Election}
  {now : Instant}

/-- After a request for a cycle, and as long as none began since, a request waits in the
queue or the loop received one since, unless the loop ended.  A loop that runs has a next
step then, and it ends only as it takes up the signal to stop.  However calls interleave
with the steps of the loop, a cycle has begun once these are more than `untilCycle` and
the calls; what was registered is stored then, and the cycle goes through that store if
it has the lead and reaches it. -/
theorem no_request_is_lost
    (h : Reaches givesFresh (.ofDispatcher (.initial registry settings access election now)) s)
    (hm : s.givesFresh m = true) (hasks : s.asks m = true) (hafter : s.after? m = some asked) :
    (∀ t, Reaches (goesOn givesFresh) asked t →
      Awaits givesFresh asked t ∧
      (t.isRunning = true → ∃ t', t.after? .loop = some t') ∧
      ∀ m' t', t.isRunning = true → t.after? m' = some t' → t'.loop.phase = .ended →
        m' = .loop ∧ ∃ shutdown, t.shutdown.poll? = some (.stop, shutdown)) ∧
    ∀ moves t, asked.follow? givesFresh moves = some t →
      asked.untilCycle + moves.countP Move.isCall < moves.countP Move.isLoop →
      ∃ before rest begun listing, moves = before ++ .loop :: rest ∧
        asked.follow? (goesOn givesFresh) before = some begun ∧
        begun.loop.phase = .starting ∧ begun.after? .loop = some listing ∧
        (∀ tag owner deadline payload id, m = .register tag owner deadline payload →
          (s.registerEvent tag owner deadline payload).1 = .ok id →
          ∃ e ∈ listing.dispatcher.store.events, e.id = id) ∧
        (begun.dispatcher.election.answer = .ok true →
          begun.dispatcher.access = .unhindered → begun.GoesThrough listing) := by
  have hclosed : s.wakeups.closed = true → s.loop.phase = .ended :=
    h.induct (P := fun s => s.wakeups.closed = true → s.loop.phase = .ended)
      (fun hshut => absurd hshut Bool.false_ne_true)
      fun _ _ _ hclosed _ hmoved => ended_of_closed hclosed hmoved
  have hreach : Reaches givesFresh _ asked := .move m h hm hafter
  refine ⟨fun t ht => ?_, fun moves t hrun hlong => ?_⟩
  · have hawaits := awaits_of_asks hclosed hasks hafter ht
    exact ⟨hawaits, hawaits.exists_loopStep, fun _ _ => stops_of_ends⟩
  · rcases begins_or_counts hrun with
      ⟨before, rest, begun, listing, hmoves, hbefore, hphase, hallowed, hlists⟩ | ⟨-, hcount⟩
    · have hbegun : Reaches givesFresh asked begun :=
        (Reaches.refl.follow? hbefore).mono fun _ _ hgoesOn => (Bool.and_eq_true_iff.1 hgoesOn).1
      refine ⟨before, rest, begun, listing, hmoves, hbefore, hphase, hlists, ?_,
        goesThrough_of_leads hphase hlists⟩
      rintro tag owner deadline payload id rfl hid
      cases hafter
      obtain ⟨-, -, e, he, hsame, -⟩ := lasts_of_registerEvent (fun _ _ hfresh => hfresh)
        (distinctIds_of_reaches (fun _ _ hfresh => hfresh) hreach) (Prod.ext hid rfl)
        (.move .loop hbegun hallowed hlists)
      exact ⟨e, he, hsame⟩
    · omega

end Result

/-- Events of one tag have a handler. -/
def crowdedStart : Service :=
  .ofDispatcher
    (.initial (Registry.empty.register "a:r" .team (.ofScripts [⟨[], .outcome .done⟩]))
      ⟨1000, ⟨.ofSeconds 180, 5⟩, none⟩ .unhindered .always .epoch)

/-- A cycle lists an event, and more requests come than can wait while it goes on. -/
def crowdedMoves : List Move :=
  [.start, .register "a:r" "o" (.ofSeconds 300) (.ok .null), .loop, .loop, .loop] ++
    List.replicate 257 (.trigger "again")

/-- An event is registered while the queue is full; the loop goes on, and one more request
comes. -/
def crowdedCall : Move := .register "a:r" "p" (.ofSeconds 300) (.ok .null)

def crowdedSteps : List Move := .loop :: .trigger "again" :: List.replicate 261 .loop

theorem no_request_is_lost_of_crowdedMoves :
    ∃ s asked t, Reaches givesFresh crowdedStart s ∧ s.wakeups.queue.length = 256 ∧
      s.givesFresh crowdedCall = true ∧ s.asks crowdedCall = true ∧
      s.after? crowdedCall = some asked ∧ Awaits givesFresh asked asked ∧
      (∃ t', asked.after? .loop = some t') ∧
      asked.follow? givesFresh crowdedSteps = some t ∧
      ∃ before rest begun listing, crowdedSteps = before ++ .loop :: rest ∧
        asked.follow? (goesOn givesFresh) before = some begun ∧
        begun.loop.phase = .starting ∧ begun.after? .loop = some listing ∧
        ∃ e ∈ listing.dispatcher.store.events, e.id = .ofSerial 1 := by
  have hrun : (crowdedStart.follow? givesFresh crowdedMoves).map (fun s =>
      (s.wakeups.queue.length, s.givesFresh crowdedCall && s.asks crowdedCall,
        (s.registerEvent "a:r" "p" (.ofSeconds 300) (.ok .null)).1.toOption,
        (s.after? crowdedCall).map fun asked =>
          (asked.untilCycle, asked.isRunning && (asked.follow? givesFresh crowdedSteps).isSome))) =
      some (256, true, some (.ofSerial 1), some (260, true)) := by
    decide +kernel
  obtain ⟨s, hs, hview⟩ := Option.map_eq_some_iff.1 hrun
  obtain ⟨hqueue, hview⟩ := Prod.mk.inj hview
  obtain ⟨hcalls, hview⟩ := Prod.mk.inj hview
  obtain ⟨hid, hview⟩ := Prod.mk.inj hview
  obtain ⟨hfresh, hasks⟩ := Bool.and_eq_true_iff.1 hcalls
  obtain ⟨asked, hafter, hview⟩ := Option.map_eq_some_iff.1 hview
  obtain ⟨hcount, hview⟩ := Prod.mk.inj hview
  obtain ⟨hrunning, hfollows⟩ := Bool.and_eq_true_iff.1 hview
  obtain ⟨t, ht⟩ := Option.isSome_iff_exists.1 hfollows
  have hreach : Reaches givesFresh crowdedStart s := Reaches.refl.follow? hs
  obtain ⟨hawaits, hbegins⟩ := no_request_is_lost hreach hfresh hasks hafter
  obtain ⟨hawaited, hnext, -⟩ := hawaits asked .refl
  have hlong : asked.untilCycle + crowdedSteps.countP Move.isCall <
      crowdedSteps.countP Move.isLoop := by
    rw [hcount]
    decide +kernel
  obtain ⟨before, rest, begun, listing, hmoves, hbefore, hphase, hlists, hstored, -⟩ :=
    hbegins crowdedSteps t ht hlong
  refine ⟨s, asked, t, hreach, hqueue, hfresh, hasks, hafter, hawaited, hnext hrunning, ht,
    before, rest, begun, listing, hmoves, hbefore, hphase, hlists, ?_⟩
  refine hstored "a:r" "p" (.ofSeconds 300) (.ok .null) (.ofSerial 1) rfl ?_
  generalize (s.registerEvent "a:r" "p" (.ofSeconds 300) (.ok .null)).1 = answer at hid
  cases answer with
  | error cause => cases hid
  | ok id => exact congrArg Except.ok (Option.some.inj hid)

end Service
end EventDispatch
