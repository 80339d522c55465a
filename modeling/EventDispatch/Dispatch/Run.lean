import EventDispatch.Dispatch.Service

/-!
# Running the service

**Algorithm.** `runLoop` lets the loop go on until it waits or has ended. `settle` does that and then
lets the workers go on and the handlers end that were told to stop, so that nothing more can happen
at the present time: workers never give the loop a reason to wake up. `advance` lets time pass from
one timer to the next and settles at each.

**Results.** Each step of the loop uses up one of its reasons to wake up, or brings it closer to
waiting; so it always comes to wait or to its end.

**Contents**

* `Phase.remaining`, `Service.reasons`, `Service.loopStep_shrinks`
* `Service.runLoop`, `Service.settle`, `Service.advance`
-/

namespace EventDispatch

/-- What a phase has yet to do before the loop waits again. -/
def Phase.remaining : Phase → Nat × Nat
  | .unstarted | .ended => (0, 0)
  | .waiting => (1, 0)
  | .claiming candidates _ => (2, candidates.length)
  | .starting => (3, 0)
  | .draining _ _ => (4, 0)

namespace Service

/-- The number of reasons to wake up that are there. -/
def reasons (s : Service) : Nat :=
  s.wakeups.queue.length + s.shutdown.unseen.toNat + s.pausesChanged.toNat + s.tickDue.toNat

/-- What a waiting loop takes up is one reason less, or ends it. -/
theorem wake?_shrinks {s s' : Service} (h : s.wake? = some s') :
    s'.reasons < s.reasons ∨ s'.reasons ≤ s.reasons ∧ s'.loop.phase = .ended := by
  unfold wake? ShutdownSignal.poll? Wakeups.receive? at h
  split at h
  · next shutdown hp =>
    cases h
    right
    refine ⟨?_, rfl⟩
    change 0 + shutdown.unseen.toNat + s.pausesChanged.toNat + s.tickDue.toNat ≤ s.reasons
    unfold reasons
    split at hp
    · simp only [Option.some.injEq, Prod.mk.injEq] at hp
      obtain ⟨_, rfl⟩ := hp
      simp only [Bool.toNat_false]
      omega
    · split at hp
      · cases hp
        omega
      · cases hp
  · next hp =>
    cases h
    left
    split at hp
    · next hu =>
      simp only [Option.some.injEq, Prod.mk.injEq] at hp
      obtain ⟨_, rfl⟩ := hp
      change s.wakeups.queue.length + 0 + s.pausesChanged.toNat + s.tickDue.toNat < s.reasons
      simp only [reasons, hu, Bool.toNat_true]
      omega
    · split at hp <;> cases hp
  · split at h
    · next hint wakeups hr =>
      cases h
      left
      change wakeups.queue.length + s.shutdown.unseen.toNat + s.pausesChanged.toNat +
        s.tickDue.toNat < s.reasons
      split at hr
      · cases hr
      · next hq =>
        cases hr
        simp only [reasons, hq, List.length_cons]
        omega
    · split at h
      · next hc =>
        cases h
        left
        change s.wakeups.queue.length + s.shutdown.unseen.toNat +
          Bool.toNat (decide (s.pauses.version ≠ s.pauses.version)) + s.tickDue.toNat < s.reasons
        simp only [reasons, hc, Bool.toNat_true, ne_eq, not_true_eq_false, decide_false,
          Bool.toNat_false]
        omega
      · split at h
        · next ht =>
          cases h
          left
          have hfalse : tickDue { s with
              loop := ⟨.starting, s.loop.watcher,
                s.dispatcher.uptime + s.dispatcher.settings.tick⟩ } = false := by
            simp only [tickDue, Bool.and_eq_false_iff, decide_eq_false_iff_not]
            omega
          change s.wakeups.queue.length + s.shutdown.unseen.toNat + s.pausesChanged.toNat +
            Bool.toNat (tickDue { s with
              loop := ⟨.starting, s.loop.watcher,
                s.dispatcher.uptime + s.dispatcher.settings.tick⟩ }) < s.reasons
          simp only [reasons, ht, hfalse, Bool.toNat_true, Bool.toNat_false]
          omega
        · cases h

/-- A service whose loop moved on, with the same reasons to wake up. -/
theorem reasons_congr {s s' : Service} (hw : s'.wakeups = s.wakeups)
    (hs : s'.shutdown = s.shutdown) (hp : s'.pauses = s.pauses)
    (hl : s'.loop.watcher = s.loop.watcher ∧ s'.loop.nextTick = s.loop.nextTick)
    (hd : s'.dispatcher.uptime = s.dispatcher.uptime ∧
      s'.dispatcher.settings = s.dispatcher.settings) : s'.reasons = s.reasons := by
  simp only [reasons, pausesChanged, tickDue, hw, hs, hp, hl, hd]

/-- With the same reasons it is enough that the loop comes closer. -/
theorem lex_of_eq {r r' : Nat} {p p' : Nat × Nat} (hr : r' = r)
    (hp : Prod.Lex (· < ·) (· < ·) p' p) :
    Prod.Lex (· < ·) (Prod.Lex (· < ·) (· < ·)) (r', p') (r, p) :=
  hr ▸ Prod.Lex.right _ hp

/-- A step of the loop uses up a reason, or comes closer to waiting or to the end. -/
theorem loopStep_shrinks {s s' : Service} (h : s.loopStep = some s') :
    Prod.Lex (· < ·) (Prod.Lex (· < ·) (· < ·)) (s'.reasons, s'.loop.phase.remaining)
      (s.reasons, s.loop.phase.remaining) := by
  unfold loopStep at h
  split at h
  · cases h
  · cases h
  · next hph =>
    rcases wake?_shrinks h with hlt | ⟨hle, hend⟩
    · exact Prod.Lex.left _ _ hlt
    · rw [hph, hend]
      rcases Nat.lt_or_eq_of_le hle with hlt | heq
      · exact Prod.Lex.left _ _ hlt
      · rw [heq]
        exact Prod.Lex.right _ (Prod.Lex.left _ _ (by decide))
  · next hint coalesced hph =>
    split at h
    · next wakeups hr =>
      cases h
      refine Prod.Lex.left _ _ ?_
      have := Wakeups.length_receive? hr
      change wakeups.queue.length + s.shutdown.unseen.toNat + s.pausesChanged.toNat +
        s.tickDue.toNat < s.reasons
      unfold reasons
      omega
    · cases h
      rw [hph]
      exact Prod.Lex.right _ (Prod.Lex.left _ _ (by decide))
  · next hph =>
    cases h
    have hd := s.dispatcher.openCycle_frame s.pauses.classes s.dispatcher.now
    rw [hph]
    unfold beginCycle
    split <;> rename_i heq <;> rw [heq] at hd
    · exact lex_of_eq (reasons_congr rfl rfl rfl ⟨rfl, rfl⟩ ⟨hd.uptime, hd.settings⟩)
        (Prod.Lex.left _ _ (by decide))
    · exact lex_of_eq (reasons_congr rfl rfl rfl ⟨rfl, rfl⟩ ⟨hd.uptime, hd.settings⟩)
        (Prod.Lex.left _ _ (by decide))
  · next count hph =>
    cases h
    rw [hph]
    have hr : (s.finishCycle count).reasons = s.reasons := by
      unfold finishCycle
      dsimp only
      split <;> rfl
    rw [hr]
    exact Prod.Lex.right _ (Prod.Lex.left _ _ (by decide))
  · next e rest count hph =>
    cases h
    have hd := s.dispatcher.startOne_frame e
    rw [hph]
    exact lex_of_eq (reasons_congr rfl rfl rfl ⟨rfl, rfl⟩ ⟨hd.uptime, hd.settings⟩)
      (Prod.Lex.right _ (by simp))

/-- Lets the loop go on until it waits or has ended. -/
def runLoop (s : Service) : Service :=
  match h : s.loopStep with
  | none => s
  | some s' =>
    have := loopStep_shrinks h
    runLoop s'
termination_by (s.reasons, s.loop.phase.remaining)
decreasing_by exact this

/-- Lets everything happen that can happen at the present time. -/
def settle (s : Service) : Service :=
  let looped := s.runLoop
  { looped with dispatcher := { looped.dispatcher.runWorkers with lingering := [] } }

/-- Lets time pass on both clocks. -/
def elapse (s : Service) (milliseconds : Nat) : Service :=
  { s with dispatcher := s.dispatcher.elapse milliseconds }

/-- The points of the uptime at which the loop or a worker goes on by itself. -/
def timers (s : Service) : List Nat :=
  if s.isRunning && 0 < s.dispatcher.settings.tick then s.loop.nextTick :: s.dispatcher.timers
  else s.dispatcher.timers

/-- The milliseconds until the first timer to come. -/
def untilNextTimer? (s : Service) : Option Nat :=
  ((s.timers.filter (s.dispatcher.uptime < ·)).min?).map (· - s.dispatcher.uptime)

/-- Lets time pass from one timer to the next, and lets everything happen at each. -/
def advance (s : Service) (milliseconds : Nat) : Service :=
  match s.untilNextTimer? with
  | none => (s.elapse milliseconds).settle
  | some wait =>
    if 0 < wait ∧ wait ≤ milliseconds then
      advance (s.elapse wait).settle (milliseconds - wait)
    else (s.elapse milliseconds).settle
termination_by milliseconds

end Service
end EventDispatch
