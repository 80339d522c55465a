import EventDispatch.Proofs.Run.Settling
import Mathlib.Data.List.Nodup

/-!
# How workers come to their end

**Input.** A service whose workers may go on, and for which time may pass, whenever that
is possible; what else may happen does not matter.

**Algorithm.** A worker that has its permit is let go on until its handler is called.
Then time passes up to the limit of the handler, and the worker performs its last
actions.  As long as no worker has a permit, there is one for the first of them.

**Results.** Any worker with a permit can end without a change to the others
(`LetsWork.ends_of_holding`), and so all workers can (`LetsWork.ends_all`), whatever
their handlers do and however few permits there are.
-/

namespace EventDispatch

namespace Dispatcher

/-- The numbers of the workers. -/
def serials (d : Dispatcher) : List Nat := d.workers.map Worker.serial

theorem serials_putWorker (d : Dispatcher) (w : Worker) : (d.putWorker w).serials = d.serials := by
  unfold serials putWorker
  rw [List.map_map]
  refine List.map_congr_left fun v _ => ?_
  by_cases hserial : v.serial = w.serial
  · simp [hserial]
  · simp [hserial]

theorem serials_dropWorker (d : Dispatcher) (serial : Nat) :
    (d.dropWorker serial).serials = d.serials.filter fun n => n ≠ serial := by
  unfold serials dropWorker
  rw [List.filter_map]
  rfl

/-- Where the numbers are distinct, each belongs to one worker. -/
theorem knows_of_mem {d : Dispatcher} (hnodup : d.serials.Nodup) {w : Worker}
    (hw : w ∈ d.workers) : d.Knows w :=
  ⟨hw, fun _ hv hserial => List.inj_on_of_nodup_map hnodup hv hw hserial⟩

end Dispatcher

namespace Service

/-- Workers go on and time passes whenever that is possible. -/
structure LetsWork (allowed : Service → Move → Bool) : Prop where
  work : ∀ s serial, allowed s (.work serial) = true
  elapse : ∀ s milliseconds, allowed s (.elapse milliseconds) = true

/-- The worker of a number can end, and leave the others of these numbers. -/
def CanEnd (allowed : Service → Move → Bool) (s₀ : Service) (serials : List Nat) (serial : Nat) :
    Prop :=
  ∃ s, Reaches allowed s₀ s ∧ s.dispatcher.serials = serials.filter fun n => n ≠ serial

namespace LetsWork

variable {allowed : Service → Move → Bool} {s₀ s : Service} {w : Worker}

theorem reaches_work (h : LetsWork allowed) (hreach : Reaches allowed s₀ s)
    (hknown : s.dispatcher.Knows w) {d : Dispatcher} {stage : Stage}
    (hstep : s.dispatcher.workerStep w = some (d, some stage)) :
    Reaches allowed s₀ { s with dispatcher := d.putWorker { w with stage } } ∧
      (d.putWorker { w with stage }).Knows { w with stage } ∧
      (d.putWorker { w with stage }).serials = s.dispatcher.serials := by
  have hworkers : d.workers = s.dispatcher.workers := (Dispatcher.frame_of_workerStep hstep).1
  refine ⟨.move (.work w.serial) hreach (h.work s w.serial) ?_, hknown.putWorker hworkers stage, ?_⟩
  · rw [after?_work hknown, hstep]
  · rw [Dispatcher.serials_putWorker]
    unfold Dispatcher.serials
    rw [hworkers]

/-- A worker that has only its last actions left can end. -/
theorem ends_of_closing (h : LetsWork allowed) {todo : List Action}
    (hreach : Reaches allowed s₀ s) (hknown : s.dispatcher.Knows w)
    (hstage : w.stage = .closing todo) :
    CanEnd allowed s₀ s.dispatcher.serials w.serial := by
  induction todo generalizing s w with
  | nil =>
    have hafter : s.after? (.work w.serial) =
        some { s with dispatcher := s.dispatcher.dropWorker w.serial } := by
      rw [after?_work hknown]
      simp [Dispatcher.workerStep, hstage]
    refine ⟨_, .move (.work w.serial) hreach (h.work s w.serial) hafter, ?_⟩
    exact s.dispatcher.serials_dropWorker w.serial
  | cons action rest ih =>
    have hstep : s.dispatcher.workerStep w =
        some (s.dispatcher.perform w.event action, some (.closing rest)) := by
      simp [Dispatcher.workerStep, hstage]
    obtain ⟨hnext, hknown', hserials⟩ := h.reaches_work hreach hknown hstep
    have hends := ih hnext hknown' rfl
    rw [← hserials]
    exact hends

/-- A worker whose handler runs can end, at the latest when its time is over. -/
theorem ends_of_handling (h : LetsWork allowed) {todo : List Action} {ending : Ending}
    {pause : Pause} {limit : Nat} (hreach : Reaches allowed s₀ s)
    (hknown : s.dispatcher.Knows w) (hstage : w.stage = .handling todo ending pause limit) :
    CanEnd allowed s₀ s.dispatcher.serials w.serial := by
  have hlate : Reaches allowed s₀ { s with dispatcher := s.dispatcher.elapse limit } :=
    .move (.elapse limit) hreach (h.elapse s limit) rfl
  have hstep := Dispatcher.workerStep_of_overdue (d := s.dispatcher.elapse limit) hstage
    (Nat.le_add_left _ _)
  have hknown' : (s.dispatcher.elapse limit).Knows w := hknown
  obtain ⟨hnext, hknown'', hserials⟩ := h.reaches_work hlate hknown' hstep
  have hends := h.ends_of_closing hnext hknown'' rfl
  rw [hserials] at hends
  exact hends

theorem ends_of_opening (h : LetsWork allowed) {todo : List Action}
    (hreach : Reaches allowed s₀ s) (hknown : s.dispatcher.Knows w)
    (hstage : w.stage = .opening todo) :
    CanEnd allowed s₀ s.dispatcher.serials w.serial := by
  induction todo generalizing s w with
  | nil =>
    have hstep : s.dispatcher.workerStep w =
        some ((s.dispatcher.beginCall w).1, some (s.dispatcher.beginCall w).2) := by
      simp [Dispatcher.workerStep, hstage]
    obtain ⟨hnext, hknown', hserials⟩ := h.reaches_work hreach hknown hstep
    rw [← hserials]
    -- The handler is called, or there is no time to call it.
    generalize hbegun : (s.dispatcher.beginCall w).2 = stage at hnext hknown'
    cases stage with
    | handling todo ending pause limit =>
      have hends := h.ends_of_handling hnext hknown' rfl
      exact hends
    | closing todo =>
      have hends := h.ends_of_closing hnext hknown' rfl
      exact hends
    | queued | opening =>
      unfold Dispatcher.beginCall at hbegun
      split at hbegun <;> cases hbegun
  | cons action rest ih =>
    have hstep : s.dispatcher.workerStep w =
        some (s.dispatcher.perform w.event action, some (.opening rest)) := by
      simp [Dispatcher.workerStep, hstage]
    obtain ⟨hnext, hknown', hserials⟩ := h.reaches_work hreach hknown hstep
    have hends := ih hnext hknown' rfl
    rw [← hserials]
    exact hends

/-- A worker that has its permit can end, without a change to the others. -/
theorem ends_of_holding (h : LetsWork allowed) (hreach : Reaches allowed s₀ s)
    (hknown : s.dispatcher.Knows w) (hholds : w.holdsPermit = true) :
    CanEnd allowed s₀ s.dispatcher.serials w.serial := by
  cases hstage : w.stage with
  | queued => simp [Worker.holdsPermit, hstage] at hholds
  | opening todo => exact h.ends_of_opening hreach hknown hstage
  | handling todo ending pause limit => exact h.ends_of_handling hreach hknown hstage
  | closing todo => exact h.ends_of_closing hreach hknown hstage

/-- Whoever waits for a permit while nobody has one gets it. -/
theorem ends_of_waiting (h : LetsWork allowed) (hreach : Reaches allowed s₀ s)
    (hknown : s.dispatcher.Knows w) (hwaits : w.holdsPermit = false)
    (hnone : ∀ v ∈ s.dispatcher.workers, v.holdsPermit = false) :
    CanEnd allowed s₀ s.dispatcher.serials w.serial := by
  have hstage : w.stage = .queued := by
    cases hstage : w.stage with
    | queued => rfl
    | opening | handling | closing => simp [Worker.holdsPermit, hstage] at hwaits
  have hholders : s.dispatcher.holders = 0 := by
    unfold Dispatcher.holders
    rw [List.countP_eq_zero]
    intro v hv
    simp [hnone v hv]
  have hfree : s.dispatcher.hasFreePermit = true := by
    unfold Dispatcher.hasFreePermit Settings.permits?
    rw [hholders]
    cases s.dispatcher.settings.cap with
    | none => rfl
    | some cap => exact decide_eq_true (Nat.lt_of_lt_of_le Nat.one_pos (Nat.le_max_left 1 cap))
  have hstep : s.dispatcher.workerStep w =
      some (s.dispatcher, some (.opening (openingActions w.event))) := by
    simp [Dispatcher.workerStep, hstage, hfree]
  obtain ⟨hnext, hknown', hserials⟩ := h.reaches_work hreach hknown hstep
  have hends := h.ends_of_opening hnext hknown' rfl
  rw [← hserials]
  exact hends

/-- Some worker can end next. -/
theorem ends_one (h : LetsWork allowed) (hreach : Reaches allowed s₀ s)
    (hnodup : s.dispatcher.serials.Nodup) (hsome : s.dispatcher.workers ≠ []) :
    ∃ w ∈ s.dispatcher.workers, CanEnd allowed s₀ s.dispatcher.serials w.serial := by
  by_cases hholding : ∃ w ∈ s.dispatcher.workers, w.holdsPermit = true
  · obtain ⟨w, hw, hholds⟩ := hholding
    exact ⟨w, hw, h.ends_of_holding hreach (Dispatcher.knows_of_mem hnodup hw) hholds⟩
  · have hnone : ∀ v ∈ s.dispatcher.workers, v.holdsPermit = false := by
      intro v hv
      exact Bool.eq_false_iff.2 fun hholds => hholding ⟨v, hv, hholds⟩
    obtain ⟨w, hw⟩ := List.exists_mem_of_ne_nil _ hsome
    exact ⟨w, hw, h.ends_of_waiting hreach (Dispatcher.knows_of_mem hnodup hw) (hnone w hw) hnone⟩

/-- All workers can end. -/
theorem ends_all (h : LetsWork allowed) (hreach : Reaches allowed s₀ s)
    (hnodup : s.dispatcher.serials.Nodup) :
    ∃ s', Reaches allowed s₀ s' ∧ s'.dispatcher.workers = [] := by
  -- The workers get fewer with each one that ends.
  generalize hcount : s.dispatcher.serials.length = count
  induction count using Nat.strongRecOn generalizing s with
  | ind count ih =>
    by_cases hsome : s.dispatcher.workers = []
    · exact ⟨s, hreach, hsome⟩
    · obtain ⟨w, hw, s', hreach', hserials⟩ := h.ends_one hreach hnodup hsome
      have hfewer : s'.dispatcher.serials.length < count := by
        rw [hserials, ← hcount]
        exact List.length_filter_lt_length_iff_exists.2
          ⟨w.serial, List.mem_map_of_mem hw, by simp⟩
      have hnodup' : s'.dispatcher.serials.Nodup := by
        rw [hserials]
        exact hnodup.filter _
      exact ih _ hfewer hreach' hnodup' rfl

end LetsWork
end Service
end EventDispatch
