import EventDispatch.Proofs.Run.Budget
import EventDispatch.Proofs.Run.Ending

/-!
# Handlers that were told to stop

**Input.** A move of a service.  A worker tells a handler that is out of time to stop, does
not wait for its end, and gives its permit back when it ends itself.

**Measure.** The calls in progress, and those that begin without another permit: the workers
that have a permit and are not yet at their last actions, and the handlers that were told to
stop and have not ended (`Dispatcher.callsAdmitted`).

**Results.** Telling a handler to stop changes nothing about the measure.  Only a worker that
leaves the queue adds to it, by one (`callsAdmitted_le_of_after?`); so calls are as many as
they are allowed to be while every worker that leaves the queue counts those handlers
(`Service.heedsLingering`).
-/

namespace EventDispatch

/-- Whether a worker with a permit has called its handler, or may yet call it. -/
def Stage.isAdmitted : Stage → Bool
  | .opening _ => true
  | .handling _ _ _ _ => true
  | _ => false

/-- Whether its handler was called, or may be called without another permit. -/
def Worker.isAdmitted (w : Worker) : Bool := w.stage.isAdmitted

namespace Dispatcher

/-- The calls that are in progress or begin without another permit. -/
def callsAdmitted (d : Dispatcher) : Nat :=
  d.workers.countP Worker.isAdmitted + d.lingering.length

variable {d d' : Dispatcher} {w : Worker} {stage : Stage}

theorem callsInProgress_le (d : Dispatcher) : d.callsInProgress ≤ d.callsAdmitted := by
  refine Nat.add_le_add_right (List.countP_mono_left fun w _ hhandling => ?_) _
  unfold Worker.isHandling at hhandling
  split at hhandling
  · next hstage => simp [Worker.isAdmitted, Stage.isAdmitted, hstage]
  · cases hhandling

/-- A handler that is told to stop moves from the one side of the account to the other. -/
theorem admitted_of_handlingStep {e : Event} {todo : List Action} {ending : Ending}
    {pause : Pause} {limit : Nat}
    (h : d.handlingStep e todo ending pause limit = some (d', stage)) :
    stage.isAdmitted.toNat + d'.lingering.length ≤ 1 + d.lingering.length := by
  unfold handlingStep at h
  split at h
  · cases h
    simp only [Stage.isAdmitted, Bool.toNat_false, List.length_cons]
    omega
  · have hkept : d'.lingering = d.lingering := by
      split at h
      · split at h
        · cases h
          rfl
        · cases h
      · split at h
        · cases h
          rfl
        · cases h
      all_goals
        cases h
        rfl
    rw [hkept]
    exact Nat.add_le_add_right stage.isAdmitted.toNat_le _

/-- A step of a worker adds to the calls only if the worker leaves the queue. -/
theorem admitted_of_workerStep (h : d.workerStep w = some (d', some stage)) :
    stage.isAdmitted.toNat + d'.lingering.length ≤
      w.isAdmitted.toNat + d.lingering.length + (!w.holdsPermit).toNat := by
  unfold workerStep at h
  split at h
  · next hstage =>
    split at h
    · cases h
      simp only [Worker.isAdmitted, Worker.holdsPermit, hstage, Stage.isAdmitted]
      simp only [Bool.not_false, Bool.toNat_true, Bool.toNat_false]
      omega
    · cases h
  · next hstage =>
    cases h
    have hkept : (d.beginCall w).1.lingering = d.lingering := by
      unfold beginCall
      split <;> rfl
    have hadmitted : w.isAdmitted = true := by simp [Worker.isAdmitted, hstage, Stage.isAdmitted]
    have hone := (d.beginCall w).2.isAdmitted.toNat_le
    rw [hadmitted, Bool.toNat_true, hkept]
    omega
  · next hstage =>
    cases h
    simp only [Worker.isAdmitted, hstage, Stage.isAdmitted]
    exact Nat.le_add_right _ _
  · next hstage =>
    obtain ⟨⟨d₁, stage₁⟩, hstep, heq⟩ := Option.map_eq_some_iff.1 h
    cases heq
    have hadmitted : w.isAdmitted = true := by simp [Worker.isAdmitted, hstage, Stage.isAdmitted]
    have hone := admitted_of_handlingStep hstep
    rw [hadmitted, Bool.toNat_true]
    omega
  · next hstage =>
    cases h
    simp only [Worker.isAdmitted, hstage, Stage.isAdmitted]
    exact Nat.le_add_right _ _
  · cases h

/-- Putting a worker in the place of the only one with its number exchanges what the two
count. -/
theorem countP_putWorker {ws : List Worker} (hdistinct : (ws.map Worker.serial).Nodup)
    (hw : w ∈ ws) (p : Worker → Bool) (v : Worker) :
    (ws.map fun u => if u.serial = w.serial then v else u).countP p + (p w).toNat =
      ws.countP p + (p v).toNat := by
  induction ws with
  | nil => cases hw
  | cons u rest ih =>
    obtain ⟨hnew, hrest⟩ := List.nodup_cons.1 hdistinct
    simp only [List.map_cons, List.countP_cons]
    rcases List.mem_cons.1 hw with rfl | hmem
    · have hsame : (rest.map fun u => if u.serial = w.serial then v else u) = rest := by
        refine (List.map_congr_left (g := id) fun u hu => if_neg ?_).trans rest.map_id
        intro heq
        exact hnew (heq ▸ List.mem_map_of_mem hu)
      rw [hsame, if_pos rfl]
      cases p w <;> cases p v <;> simp
    · have hne : u.serial ≠ w.serial := fun heq => hnew (heq ▸ List.mem_map_of_mem hmem)
      have hih := ih hrest hmem
      rw [if_neg hne]
      omega

end Dispatcher

/-! ## Moves that start workers -/

/-- Only workers go on and end; whatever else happens starts at most one worker. -/
theorem Core.Step.crew {c c' : Core} {m : Move} (h : c.Step m c')
    (hwork : ∀ serial, m ≠ .work serial) :
    c'.settings = c.settings ∧
      (c'.workers = c.workers ∧ c'.started = c.started ∨
        ∃ e handler, c'.workers = c.workers ++ [.spawned c.started e handler] ∧
          c'.started = c.started + 1) := by
  refine ⟨h.settings_eq, ?_⟩
  cases h with
  | worked | ended => exact absurd rfl (hwork _)
  | claimed => exact Or.inr ⟨_, _, rfl, rfl⟩
  | opened =>
    left
    unfold lead
    split <;> exact ⟨rfl, rfl⟩
  | _ => exact Or.inl ⟨rfl, rfl⟩

namespace Service

variable {s s' : Service} {m : Move}

theorem crew_of_after? (hwork : ∀ serial, m ≠ .work serial) (h : s.after? m = some s') :
    s'.dispatcher.settings = s.dispatcher.settings ∧
      (s'.dispatcher.workers = s.dispatcher.workers ∧
          s'.dispatcher.started = s.dispatcher.started ∨
        ∃ e handler,
          s'.dispatcher.workers =
            s.dispatcher.workers ++ [.spawned s.dispatcher.started e handler] ∧
          s'.dispatcher.started = s.dispatcher.started + 1) := by
  cases m with
  | register tag owner deadline payload =>
    -- The identifier need not be fresh here, so this is no step of the core.
    cases h
    rcases s.core_registerEvent tag owner deadline payload with hcore | ⟨value, -, hcore⟩
    · exact ⟨congrArg Core.settings hcore,
        Or.inl ⟨congrArg Core.workers hcore, congrArg Core.started hcore⟩⟩
    · exact ⟨congrArg Core.settings hcore,
        Or.inl ⟨congrArg Core.workers hcore, congrArg Core.started hcore⟩⟩
  | _ => exact (step_of_after? rfl h).crew hwork

end Service

namespace Service

/-- Whether a move is the step with which a worker leaves the queue. -/
def admits (s : Service) : Move → Bool
  | .work serial =>
    (s.dispatcher.workers.find? fun w => w.serial = serial).any fun w => !w.holdsPermit
  | _ => false

/-- A worker leaves the queue only while the calls, with those of the handlers that were told
to stop, are fewer than the permits. -/
def heedsLingering (s : Service) (m : Move) : Bool :=
  !s.admits m || s.dispatcher.settings.permits?.all (s.dispatcher.callsAdmitted < ·)

variable {s s' : Service} {m : Move}

theorem lingering_of_after? (hwork : ∀ serial, m ≠ .work serial) (h : s.after? m = some s') :
    s'.dispatcher.lingering.length ≤ s.dispatcher.lingering.length := by
  by_cases hhinder : ∃ access, m = .hinder access
  · obtain ⟨access, rfl⟩ := hhinder
    cases h
    exact Nat.le_refl _
  · obtain ⟨-, -, hfewer⟩ := calls_of_after? h hwork fun access heq => hhinder ⟨access, heq⟩
    exact hfewer.length_le

/-- Only a worker that leaves the queue adds a call. -/
theorem callsAdmitted_le_of_after? (hdistinct : s.dispatcher.serials.Nodup)
    (h : s.after? m = some s') :
    s'.dispatcher.callsAdmitted ≤ s.dispatcher.callsAdmitted + (s.admits m).toNat := by
  by_cases hwork : ∃ serial, m = .work serial
  · obtain ⟨serial, rfl⟩ := hwork
    obtain ⟨d, hworked, rfl⟩ := Option.map_eq_some_iff.1 h
    obtain ⟨w, hw, rfl, ⟨-, rfl⟩ | ⟨d₁, stage, hstep, rfl⟩⟩ :=
      Dispatcher.worker_of_workOn? hworked
    · refine Nat.le_add_right_of_le (Nat.add_le_add_right ?_ _)
      exact List.filter_sublist.countP_le
    · have hknown := Dispatcher.knows_of_mem hdistinct hw
      have hadmits : s.admits (.work w.serial) = !w.holdsPermit := by
        simp only [admits, hknown.find?, Option.any_some]
      have hone := Dispatcher.admitted_of_workerStep hstep
      have hcount := Dispatcher.countP_putWorker hdistinct hw Worker.isAdmitted { w with stage }
      have hworkers : (d₁.putWorker { w with stage }).workers =
          s.dispatcher.workers.map fun u =>
            if u.serial = w.serial then { w with stage } else u := by
        rw [← (Dispatcher.frame_of_workerStep hstep).1]
        rfl
      unfold Dispatcher.callsAdmitted
      rw [hworkers, hadmits]
      change _ + d₁.lingering.length ≤ _
      change _ = _ + stage.isAdmitted.toNat at hcount
      omega
  · have hother : ∀ serial, m ≠ .work serial := fun serial heq => hwork ⟨serial, heq⟩
    have hcount : s'.dispatcher.workers.countP Worker.isAdmitted =
        s.dispatcher.workers.countP Worker.isAdmitted := by
      obtain ⟨-, ⟨hsame, -⟩ | ⟨e, handler, hmore, -⟩⟩ := crew_of_after? hother h
      · rw [hsame]
      · simp [hmore, List.countP_append, Worker.isAdmitted, Worker.spawned, Stage.isAdmitted]
    have hfewer := lingering_of_after? hother h
    unfold Dispatcher.callsAdmitted
    omega

/-- While every worker that leaves the queue heeds them, the calls stay within the permits. -/
theorem callsAdmitted_le_permits {permits : Nat}
    (hcapped : s.dispatcher.settings.permits? = some permits)
    (hdistinct : s.dispatcher.serials.Nodup) (hle : s.dispatcher.callsAdmitted ≤ permits)
    (hm : s.heedsLingering m = true) (h : s.after? m = some s') :
    s'.dispatcher.callsAdmitted ≤ permits := by
  have hgrows := callsAdmitted_le_of_after? hdistinct h
  unfold heedsLingering at hm
  rw [hcapped, Option.all_some] at hm
  cases hadmits : s.admits m with
  | false =>
    rw [hadmits, Bool.toNat_false] at hgrows
    omega
  | true =>
    have hfree : s.dispatcher.callsAdmitted < permits := by simpa [hadmits] using hm
    rw [hadmits, Bool.toNat_true] at hgrows
    omega

end Service
end EventDispatch
