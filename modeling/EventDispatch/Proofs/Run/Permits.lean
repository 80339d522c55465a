import EventDispatch.Proofs.Run.Lingering
import Mathlib

/-!
# Permits are conserved

**Input.** Any run of a service with a cap: any number of claimed events, handlers that end
in any way or not at all, and steps in any order.

**Algorithm.** `Metered` is a service next to a semaphore.  The step with which a worker
leaves the queue takes a permit, and its last step gives the permit back; either is not
possible if there is none.  The rows that a worker writes are kept under its number.

**Invariant.** Each permit is free or lent to one worker, and it is lent to those workers
that are neither in the queue nor at their end; who is in the queue has written nothing
(`Metered.Balanced`).

**Results.** Every step that the service makes is possible with the semaphore, and keeps
this (`Metered.Balanced.after?`).  So workers never wait for more handlers at a time than
there are permits, and without workers all permits are free.  The calls in progress are more
if a handler goes on after it was told to stop, since its worker does not wait for its end
before it gives the permit back (`exceeds_cap_of_heedlessMoves`); they are within the permits
as long as workers leave the queue only when such handlers leave room for them
(`permits_are_conserved`).
-/

namespace EventDispatch

/-- Permits that are free, and the numbers of the workers that have the others. -/
structure Semaphore where
  free : Nat
  lent : List Nat

namespace Semaphore

def full (permits : Nat) : Semaphore := ⟨permits, []⟩

def take? (x : Semaphore) (serial : Nat) : Option Semaphore :=
  match x.free with
  | 0 => none
  | free + 1 => some ⟨free, serial :: x.lent⟩

def giveBack? (x : Semaphore) (serial : Nat) : Option Semaphore :=
  if serial ∈ x.lent then some ⟨x.free + 1, x.lent.erase serial⟩ else none

/-- Each of so many permits is free or lent to one worker. -/
structure Sound (x : Semaphore) (permits : Nat) : Prop where
  total : x.free + x.lent.length = permits
  once : x.lent.Nodup

variable {x : Semaphore} {permits serial : Nat}

theorem sound_full (permits : Nat) : (full permits).Sound permits := ⟨rfl, List.nodup_nil⟩

theorem Sound.take? (h : x.Sound permits) (hfree : 0 < x.free) (hnew : serial ∉ x.lent) :
    ∃ y, x.take? serial = some y ∧ y.Sound permits ∧ y.lent = serial :: x.lent := by
  obtain ⟨free, hsucc⟩ := Nat.exists_eq_add_of_lt hfree
  have htotal := h.total
  refine ⟨⟨free, serial :: x.lent⟩, ?_, ⟨?_, List.nodup_cons.2 ⟨hnew, h.once⟩⟩, rfl⟩
  · simp [Semaphore.take?, hsucc]
  · simp only [List.length_cons]
    omega

theorem Sound.giveBack? (h : x.Sound permits) (hlent : serial ∈ x.lent) :
    ∃ y, x.giveBack? serial = some y ∧ y.Sound permits ∧ y.lent = x.lent.erase serial := by
  have htotal := h.total
  have hpos := List.length_pos_of_mem hlent
  refine ⟨_, if_pos hlent, ⟨?_, h.once.erase serial⟩, rfl⟩
  simp only [List.length_erase_of_mem hlent]
  omega

end Semaphore

/-! ## Workers with a permit -/

namespace Dispatcher

/-- The worker of the number has a permit. -/
def Lends (d : Dispatcher) (serial : Nat) : Prop :=
  ∃ w ∈ d.workers, w.serial = serial ∧ w.holdsPermit = true

variable {d d' : Dispatcher} {w : Worker} {stage : Stage} {serial : Nat}

theorem Knows.lends_iff (h : d.Knows w) : d.Lends w.serial ↔ w.holdsPermit = true := by
  constructor
  · rintro ⟨v, hv, hserial, hholds⟩
    rwa [← h.2 v hv hserial]
  · exact fun hholds => ⟨w, h.1, rfl, hholds⟩

theorem lends_putWorker_of_ne (hworkers : d'.workers = d.workers) (hne : serial ≠ w.serial) :
    (d'.putWorker { w with stage }).Lends serial ↔ d.Lends serial := by
  unfold Lends
  refine exists_congr fun v => and_congr_left fun ⟨hserial, _⟩ => ?_
  subst hserial
  exact mem_putWorker_of_ne hworkers hne

theorem lends_dropWorker : (d.dropWorker w.serial).Lends serial ↔
    serial ≠ w.serial ∧ d.Lends serial := by
  unfold Lends dropWorker
  constructor
  · rintro ⟨v, hv, rfl, hholds⟩
    obtain ⟨hmem, hne⟩ := List.mem_filter.1 hv
    exact ⟨of_decide_eq_true hne, v, hmem, rfl, hholds⟩
  · rintro ⟨hne, v, hv, rfl, hholds⟩
    exact ⟨v, List.mem_filter.2 ⟨hv, decide_eq_true hne⟩, rfl, hholds⟩

/-- Whoever goes on has a permit from then on. -/
theorem holdsPermit_of_workerStep (h : d.workerStep w = some (d', some stage)) :
    ({ w with stage } : Worker).holdsPermit = true := by
  obtain ⟨-, hprogress⟩ := progress_of_workerStep h [] []
  generalize d'.store = store at hprogress
  cases hprogress with
  | _ => rfl

theorem hasFreePermit_of_workerStep (h : d.workerStep w = some (d', some stage))
    (hstage : w.stage = .queued) : d.hasFreePermit = true := by
  by_contra hbusy
  simp [workerStep, hstage, hbusy] at h

/-- Where the numbers are distinct, as many workers have a permit as there are numbers of
such workers. -/
theorem holders_eq_length {lent : List Nat} (hdistinct : d.serials.Nodup) (honce : lent.Nodup)
    (hlent : ∀ serial, serial ∈ lent ↔ d.Lends serial) : d.holders = lent.length := by
  have hperm : ((d.workers.filter Worker.holdsPermit).map Worker.serial).Perm lent := by
    refine (List.perm_ext_iff_of_nodup ?_ honce).2 fun serial => ?_
    · exact (List.filter_sublist.map Worker.serial).nodup hdistinct
    · rw [hlent, List.mem_map]
      constructor
      · rintro ⟨w, hw, hserial⟩
        obtain ⟨hmem, hholds⟩ := List.mem_filter.1 hw
        exact ⟨w, hmem, hserial, hholds⟩
      · rintro ⟨w, hmem, hserial, hholds⟩
        exact ⟨w, List.mem_filter.2 ⟨hmem, hholds⟩, hserial⟩
  calc d.holders
      = ((d.workers.filter Worker.holdsPermit).map Worker.serial).length := by
        rw [List.length_map, ← List.countP_eq_length_filter, holders]
    _ = lent.length := hperm.length_eq

theorem countP_isHandling_le (d : Dispatcher) : d.workers.countP Worker.isHandling ≤ d.holders := by
  refine List.countP_mono_left fun w _ hhandling => ?_
  unfold Worker.isHandling at hhandling
  unfold Worker.holdsPermit
  split at hhandling
  · next hstage => rw [hstage]
  · cases hhandling

end Dispatcher

/-! ## The semaphore of a run -/

/-- A service, its semaphore, and the rows that its workers wrote, under their numbers. -/
structure Metered where
  service : Service
  semaphore : Semaphore
  written : List (Nat × LogRow)

namespace Metered

def start (s : Service) (permits : Nat) : Metered := ⟨s, .full permits, []⟩

/-- What a move does to the semaphore: a worker takes a permit with the step that leaves the
queue, and gives it back with its last one. -/
def exchange? (x : Metered) : Move → Option Semaphore
  | .work serial =>
    match (x.service.dispatcher.workers.find? fun w => w.serial = serial).map Worker.stage with
    | some .queued => x.semaphore.take? serial
    | some (.closing []) => x.semaphore.giveBack? serial
    | _ => some x.semaphore
  | _ => some x.semaphore

/-- The rows that a worker adds to the trail by a move. -/
def rows (s s' : Service) : Move → List (Nat × LogRow)
  | .work serial =>
    (s'.dispatcher.store.trail.drop s.dispatcher.store.trail.length).map fun row => (serial, row)
  | _ => []

def after? (x : Metered) (m : Move) : Option Metered := do
  let service ← x.service.after? m
  let semaphore ← x.exchange? m
  pure ⟨service, semaphore, x.written ++ rows x.service service m⟩

theorem after?_eq_some {x : Metered} {m : Move} {s : Service} {semaphore : Semaphore}
    (hafter : x.service.after? m = some s) (hexchange : x.exchange? m = some semaphore) :
    x.after? m = some ⟨s, semaphore, x.written ++ rows x.service s m⟩ := by
  simp [after?, hafter, hexchange]

theorem exchange?_work {x : Metered} {w : Worker} (h : x.service.dispatcher.Knows w) :
    x.exchange? (.work w.serial) =
      match w.stage with
      | .queued => x.semaphore.take? w.serial
      | .closing [] => x.semaphore.giveBack? w.serial
      | _ => some x.semaphore := by
  simp only [exchange?, h.find?, Option.map_some]
  cases w.stage with
  | closing todo => cases todo <;> rfl
  | _ => rfl

/-- Permits are free or lent to the workers that are neither in the queue nor at their end,
and a worker in the queue has written nothing. -/
structure Balanced (x : Metered) (permits : Nat) : Prop where
  capped : x.service.dispatcher.settings.permits? = some permits
  distinct : x.service.dispatcher.serials.Nodup
  started : ∀ w ∈ x.service.dispatcher.workers, w.serial < x.service.dispatcher.started
  sound : x.semaphore.Sound permits
  lent : ∀ serial, serial ∈ x.semaphore.lent ↔ x.service.dispatcher.Lends serial
  known : ∀ entry ∈ x.written, entry.1 < x.service.dispatcher.started
  silent : ∀ w ∈ x.service.dispatcher.workers, w.holdsPermit = false →
    ∀ entry ∈ x.written, entry.1 ≠ w.serial

section Balance

variable {x : Metered} {permits : Nat} {s' : Service} {m : Move}

theorem balanced_start {s : Service} (hcapped : s.dispatcher.settings.permits? = some permits)
    (hworkers : s.dispatcher.workers = []) : (start s permits).Balanced permits where
  capped := hcapped
  distinct := by simp [start, Dispatcher.serials, hworkers]
  started := by simp [start, hworkers]
  sound := Semaphore.sound_full permits
  lent := by simp [start, Semaphore.full, Dispatcher.Lends, hworkers]
  known := by simp [start]
  silent := by simp [start]

theorem Balanced.holders_eq (h : x.Balanced permits) :
    x.service.dispatcher.holders = x.semaphore.lent.length :=
  Dispatcher.holders_eq_length h.distinct h.sound.once h.lent

/-- A waiting worker may go on exactly if the semaphore has a permit for it. -/
theorem Balanced.hasFreePermit_iff (h : x.Balanced permits) :
    x.service.dispatcher.hasFreePermit = true ↔ 0 < x.semaphore.free := by
  have htotal := h.sound.total
  simp only [Dispatcher.hasFreePermit, h.capped, Option.all_some, decide_eq_true_eq,
    h.holders_eq]
  omega

/-- The same workers have the same permits. -/
theorem Balanced.keep (h : x.Balanced permits)
    (hsettings : s'.dispatcher.settings = x.service.dispatcher.settings)
    (hworkers : s'.dispatcher.workers = x.service.dispatcher.workers)
    (hstarted : s'.dispatcher.started = x.service.dispatcher.started) :
    Balanced ⟨s', x.semaphore, x.written⟩ permits where
  capped := hsettings ▸ h.capped
  distinct := by
    have hdistinct := h.distinct
    unfold Dispatcher.serials at hdistinct ⊢
    rwa [hworkers]
  started := hstarted ▸ hworkers ▸ h.started
  sound := h.sound
  lent := by
    have hlent := h.lent
    unfold Dispatcher.Lends at hlent ⊢
    rwa [hworkers]
  known := hstarted ▸ h.known
  silent := hworkers ▸ h.silent

/-- A worker that is started waits, under a number that no worker had before. -/
theorem Balanced.spawn (h : x.Balanced permits) {e : Event} {handler : Handler}
    (hsettings : s'.dispatcher.settings = x.service.dispatcher.settings)
    (hworkers : s'.dispatcher.workers =
      x.service.dispatcher.workers ++ [.spawned x.service.dispatcher.started e handler])
    (hstarted : s'.dispatcher.started = x.service.dispatcher.started + 1) :
    Balanced ⟨s', x.semaphore, x.written⟩ permits := by
  have hmem : ∀ w, w ∈ s'.dispatcher.workers ↔ w ∈ x.service.dispatcher.workers ∨
      w = .spawned x.service.dispatcher.started e handler := by
    simp [hworkers]
  have hserials : s'.dispatcher.serials =
      x.service.dispatcher.serials ++ [x.service.dispatcher.started] := by
    simp [Dispatcher.serials, hworkers, Worker.spawned]
  have hlends : ∀ serial, s'.dispatcher.Lends serial ↔ x.service.dispatcher.Lends serial := by
    intro serial
    simp [Dispatcher.Lends, hmem, or_and_right, exists_or, Worker.spawned, Worker.holdsPermit]
  constructor
  · exact hsettings ▸ h.capped
  · rw [hserials]
    refine List.nodup_append.2 ⟨h.distinct, List.nodup_singleton _, ?_⟩
    rintro _ hserial _ hlast rfl
    obtain ⟨w, hw, heq⟩ := List.mem_map.1 hserial
    have hlt := h.started w hw
    rw [heq, List.mem_singleton.1 hlast] at hlt
    exact Nat.lt_irrefl _ hlt
  · intro w hw
    rw [hstarted]
    rcases (hmem w).1 hw with hold | rfl
    · exact Nat.lt_succ_of_lt (h.started w hold)
    · exact Nat.lt_succ_self _
  · exact h.sound
  · exact fun serial => (h.lent serial).trans (hlends serial).symm
  · intro entry hentry
    rw [hstarted]
    exact Nat.lt_succ_of_lt (h.known entry hentry)
  · intro w hw hwaits entry hentry
    rcases (hmem w).1 hw with hold | rfl
    · exact h.silent w hold hwaits entry hentry
    · exact Nat.ne_of_lt (h.known entry hentry)

theorem Balanced.move (h : x.Balanced permits) (hwork : ∀ serial, m ≠ .work serial)
    (hafter : x.service.after? m = some s') : Balanced ⟨s', x.semaphore, x.written⟩ permits := by
  obtain ⟨hsettings, ⟨hworkers, hstarted⟩ | ⟨e, handler, hworkers, hstarted⟩⟩ :=
    Service.crew_of_after? hwork hafter
  · exact h.keep hsettings hworkers hstarted
  · exact h.spawn hsettings hworkers hstarted

/-- Whoever leaves the queue finds a permit, and whoever goes on later keeps the one it has. -/
theorem Balanced.exchange?_of_workerStep (h : x.Balanced permits) {w : Worker}
    (hw : w ∈ x.service.dispatcher.workers) {d : Dispatcher} {stage : Stage}
    (hstep : x.service.dispatcher.workerStep w = some (d, some stage)) :
    ∃ y, x.exchange? (.work w.serial) = some y ∧ y.Sound permits ∧
      ∀ serial, serial ∈ y.lent ↔ serial = w.serial ∨ serial ∈ x.semaphore.lent := by
  have hknown := Dispatcher.knows_of_mem h.distinct hw
  rw [exchange?_work hknown]
  by_cases hstage : w.stage = .queued
  · have hfree := h.hasFreePermit_iff.1 (Dispatcher.hasFreePermit_of_workerStep hstep hstage)
    have hnew : w.serial ∉ x.semaphore.lent := by
      rw [h.lent, hknown.lends_iff]
      simp [Worker.holdsPermit, hstage]
    obtain ⟨y, htake, hsound, hlent⟩ := h.sound.take? hfree hnew
    rw [hstage]
    exact ⟨y, htake, hsound, fun serial => by rw [hlent, List.mem_cons]⟩
  · have hlent : w.serial ∈ x.semaphore.lent := by
      rw [h.lent, hknown.lends_iff]
      unfold Worker.holdsPermit
      split
      · contradiction
      · rfl
    refine ⟨x.semaphore, ?_, h.sound, fun serial => ?_⟩
    · split
      · contradiction
      · next hclosing => simp [Dispatcher.workerStep, hclosing] at hstep
      · rfl
    · constructor
      · exact Or.inr
      · rintro (rfl | hmem)
        · exact hlent
        · exact hmem

/-- A worker that has a permit from now on goes on; the semaphore lends it one if it had none. -/
theorem Balanced.goOn (h : x.Balanced permits) {w : Worker}
    (hw : w ∈ x.service.dispatcher.workers) {d : Dispatcher} {stage : Stage}
    (hstep : x.service.dispatcher.workerStep w = some (d, some stage)) {y : Semaphore}
    (hsound : y.Sound permits)
    (hlent : ∀ serial, serial ∈ y.lent ↔ serial = w.serial ∨ serial ∈ x.semaphore.lent)
    {rows : List LogRow} :
    Balanced ⟨{ x.service with dispatcher := d.putWorker { w with stage } }, y,
      x.written ++ rows.map fun row => (w.serial, row)⟩ permits := by
  have hknown := Dispatcher.knows_of_mem h.distinct hw
  have hholds := Dispatcher.holdsPermit_of_workerStep hstep
  obtain ⟨hworkers, -, hsettings, -⟩ := Dispatcher.frame_of_workerStep hstep
  have hstarted : d.started = x.service.dispatcher.started :=
    congrArg Core.started (Dispatcher.progress_of_workerStep hstep [] []).1
  have hput := hknown.putWorker hworkers stage
  have hserials : (d.putWorker { w with stage }).serials = x.service.dispatcher.serials := by
    rw [Dispatcher.serials_putWorker, Dispatcher.serials, hworkers, Dispatcher.serials]
  refine ⟨?_, hserials ▸ h.distinct, fun v hv => ?_, hsound, fun serial => ?_,
    fun entry hentry => ?_, fun v hv hwaits entry hentry => ?_⟩
  · change d.settings.permits? = some permits
    rw [hsettings, h.capped]
  · change v.serial < d.started
    rw [hstarted]
    obtain ⟨u, hu, rfl⟩ := List.mem_map.1 hv
    split
    · exact h.started w hw
    · exact h.started u (hworkers ▸ hu)
  · rw [hlent]
    by_cases hserial : serial = w.serial
    · subst hserial
      exact iff_of_true (Or.inl rfl) (hput.lends_iff.2 hholds)
    · rw [or_iff_right hserial, h.lent, Dispatcher.lends_putWorker_of_ne hworkers hserial]
  · change entry.1 < d.started
    rw [hstarted]
    rcases List.mem_append.1 hentry with hold | hnew
    · exact h.known entry hold
    · obtain ⟨row, -, rfl⟩ := List.mem_map.1 hnew
      exact h.started w hw
  · -- Who still waits is another worker.
    have hne : v.serial ≠ w.serial := by
      intro hserial
      rw [hput.2 v hv hserial, hholds] at hwaits
      cases hwaits
    rcases List.mem_append.1 hentry with hold | hnew
    · exact h.silent v ((Dispatcher.mem_putWorker_of_ne (w := { w with stage }) hworkers hne).1 hv)
        hwaits entry hold
    · obtain ⟨row, -, rfl⟩ := List.mem_map.1 hnew
      exact hne.symm

/-- A worker that ends gives its permit back. -/
theorem Balanced.leave (h : x.Balanced permits) {w : Worker}
    (hw : w ∈ x.service.dispatcher.workers) (hholds : w.holdsPermit = true) :
    ∃ y, x.semaphore.giveBack? w.serial = some y ∧
      Balanced ⟨{ x.service with dispatcher := x.service.dispatcher.dropWorker w.serial }, y,
        x.written⟩ permits := by
  have hknown := Dispatcher.knows_of_mem h.distinct hw
  obtain ⟨y, hgive, hsound, hlent⟩ :=
    h.sound.giveBack? ((h.lent w.serial).2 (hknown.lends_iff.2 hholds))
  have hmem : ∀ v ∈ (x.service.dispatcher.dropWorker w.serial).workers,
      v ∈ x.service.dispatcher.workers := fun v hv => (List.mem_filter.1 hv).1
  refine ⟨y, hgive, h.capped, ?_, fun v hv => h.started v (hmem v hv), hsound, fun serial => ?_,
    h.known, fun v hv => h.silent v (hmem v hv)⟩
  · change (x.service.dispatcher.dropWorker w.serial).serials.Nodup
    rw [Dispatcher.serials_dropWorker]
    exact h.distinct.filter _
  · rw [hlent, h.sound.once.mem_erase_iff, h.lent]
    exact Dispatcher.lends_dropWorker.symm

/-- Every step of the service is possible with the semaphore, and permits stay balanced. -/
theorem Balanced.after? (h : x.Balanced permits) (hafter : x.service.after? m = some s') :
    ∃ x', x.after? m = some x' ∧ x'.service = s' ∧ x'.Balanced permits := by
  by_cases hwork : ∃ serial, m = .work serial
  · obtain ⟨serial, rfl⟩ := hwork
    obtain ⟨d, hworked, rfl⟩ := Option.map_eq_some_iff.1 hafter
    obtain ⟨w, hw, rfl, ⟨hstage, rfl⟩ | ⟨d₁, stage, hstep, rfl⟩⟩ :=
      Dispatcher.worker_of_workOn? hworked
    · -- The last step adds no row.
      have hknown := Dispatcher.knows_of_mem h.distinct hw
      obtain ⟨y, hgive, hbalanced⟩ := h.leave hw (by simp [Worker.holdsPermit, hstage])
      have hexchange : x.exchange? (.work w.serial) = some y := by
        simp only [exchange?_work hknown, hstage, hgive]
      refine ⟨_, after?_eq_some hafter hexchange, rfl, ?_⟩
      have hrows : rows x.service
          { x.service with dispatcher := x.service.dispatcher.dropWorker w.serial }
          (.work w.serial) = [] := by
        simp [rows, Dispatcher.dropWorker]
      rw [hrows, List.append_nil]
      exact hbalanced
    · obtain ⟨y, hexchange, hsound, hlent⟩ := h.exchange?_of_workerStep hw hstep
      exact ⟨_, after?_eq_some hafter hexchange, rfl, h.goOn hw hstep hsound hlent⟩
  · have hother : ∀ serial, m ≠ .work serial := fun serial heq => hwork ⟨serial, heq⟩
    have hexchange : x.exchange? m = some x.semaphore := by
      cases m with
      | work serial => exact absurd rfl (hother serial)
      | _ => rfl
    have hrows : rows x.service s' m = [] := by
      cases m with
      | work serial => exact absurd rfl (hother serial)
      | _ => rfl
    refine ⟨_, after?_eq_some hafter hexchange, rfl, ?_⟩
    rw [hrows, List.append_nil]
    exact h.move hother hafter

/-- A run of the service is one with the semaphore. -/
theorem Balanced.of_run {moves : List Move} (h : x.Balanced permits)
    (hrun : moves.foldlM Service.after? x.service = some s') :
    ∃ x', moves.foldlM Metered.after? x = some x' ∧ x'.service = s' ∧ x'.Balanced permits := by
  induction moves generalizing x with
  | nil =>
    cases hrun
    exact ⟨x, rfl, rfl, h⟩
  | cons m rest ih =>
    obtain ⟨t, hafter, hrest⟩ := Option.bind_eq_some_iff.1 hrun
    obtain ⟨y, hy, rfl, hbalanced⟩ := h.after? hafter
    obtain ⟨x', hx', hservice, hbalanced'⟩ := ih hbalanced hrest
    exact ⟨x', Option.bind_eq_some_iff.2 ⟨y, hy, hx'⟩, hservice, hbalanced'⟩

end Balance

/-- A run in which whoever leaves the queue heeds the handlers that were told to stop. -/
theorem balanced_of_heedsLingering {s s' : Service} {permits : Nat}
    (hcapped : s.dispatcher.settings.permits? = some permits)
    (hworkers : s.dispatcher.workers = []) (hlingering : s.dispatcher.lingering = [])
    (h : Service.Reaches Service.heedsLingering s s') :
    (∃ x, x.service = s' ∧ Balanced x permits) ∧ s'.dispatcher.callsAdmitted ≤ permits := by
  refine h.induct (P := fun s => (∃ x, x.service = s ∧ Balanced x permits) ∧
    s.dispatcher.callsAdmitted ≤ permits) ?_ ?_
  · refine ⟨⟨_, rfl, balanced_start hcapped hworkers⟩, ?_⟩
    simp [Dispatcher.callsAdmitted, hworkers, hlingering]
  · rintro s m s' ⟨⟨x, rfl, hbalanced⟩, hle⟩ hm hafter
    obtain ⟨x', -, rfl, hbalanced'⟩ := hbalanced.after? hafter
    exact ⟨⟨x', rfl, hbalanced'⟩,
      Service.callsAdmitted_le_permits hbalanced.capped hbalanced.distinct hle hm hafter⟩

/-- In every run with a cap the steps are those that a semaphore with so many permits, at
least one, makes possible.  Wherever the run leads, workers wait for no more handlers than
there are permits, who waits for a permit has written no row, each permit is free or lent to
one of the workers that do not wait, who waits may go on if one is free, and without workers
all are free.  If, on the way, workers left the queue only when the handlers that had been
told to stop left room for them, no more calls are in progress than there are permits. -/
theorem permits_are_conserved {registry : Registry} {settings : Settings} {access : Access}
    {election : Election} {now : Instant} {n : Nat} (hcap : settings.cap = some n)
    {moves : List Move} {s : Service}
    (hrun : moves.foldlM Service.after?
      (.ofDispatcher (.initial registry settings access election now)) = some s) :
    ∃ x, moves.foldlM Metered.after?
        (start (.ofDispatcher (.initial registry settings access election now)) (max 1 n)) =
          some x ∧ x.service = s ∧
      s.dispatcher.workers.countP Worker.isHandling ≤ max 1 n ∧
      ((Service.ofDispatcher (.initial registry settings access election now)).follow?
          Service.heedsLingering moves = some s →
        s.dispatcher.callsInProgress ≤ max 1 n) ∧
      (∀ w ∈ s.dispatcher.workers, w.stage = .queued → ∀ row, (w.serial, row) ∉ x.written) ∧
      x.semaphore.Sound (max 1 n) ∧
      (∀ serial, serial ∈ x.semaphore.lent ↔ s.dispatcher.Lends serial) ∧
      (s.dispatcher.hasFreePermit = true ↔ 0 < x.semaphore.free) ∧
      (s.dispatcher.workers = [] → x.semaphore = .full (max 1 n)) := by
  have hcapped : settings.permits? = some (max 1 n) := by
    simp [Settings.permits?, hcap]
  obtain ⟨x, hx, rfl, hbalanced⟩ := (balanced_start (s := .ofDispatcher
    (.initial registry settings access election now)) hcapped rfl).of_run hrun
  have htotal := hbalanced.sound.total
  refine ⟨x, hx, rfl, ?_, fun hheeds => ?_, fun w hw hstage row hrow => ?_, hbalanced.sound,
    hbalanced.lent, hbalanced.hasFreePermit_iff, fun hnone => ?_⟩
  · calc x.service.dispatcher.workers.countP Worker.isHandling
        ≤ x.service.dispatcher.holders := Dispatcher.countP_isHandling_le _
      _ = x.semaphore.lent.length := hbalanced.holders_eq
      _ ≤ max 1 n := by omega
  · obtain ⟨-, hle⟩ :=
      balanced_of_heedsLingering hcapped rfl rfl (Service.Reaches.refl.follow? hheeds)
    exact Nat.le_trans (Dispatcher.callsInProgress_le _) hle
  · exact hbalanced.silent w hw (by simp [Worker.holdsPermit, hstage]) _ hrow rfl
  · have hlent : x.semaphore.lent = [] := by
      refine List.eq_nil_iff_forall_not_mem.2 fun serial hserial => ?_
      obtain ⟨w, hw, -⟩ := (hbalanced.lent serial).1 hserial
      rw [hnone] at hw
      cases hw
    rw [hlent, List.length_nil, Nat.add_zero] at htotal
    calc x.semaphore = ⟨x.semaphore.free, x.semaphore.lent⟩ := rfl
      _ = .full (max 1 n) := by rw [htotal, hlent, Semaphore.full]

/-- A handler that breaks down, and one that takes too long. -/
def scarceRegistry : Registry :=
  ⟨[("a:r", ⟨.team, .ofScripts [⟨[.panic "broken"], .outcome .done⟩]⟩),
    ("b:q", ⟨.team, .ofScripts [⟨[.act (.sleep 600000)], .outcome .done⟩]⟩)]⟩

/-- The settings of a cap of zero, which leaves one permit. -/
def scarceSettings : Settings := ⟨1000, ⟨.ofSeconds 180, 5⟩, some 0⟩

/-- A cycle claims both events, and the handler of the first one is called. -/
def scarceMoves : List Move :=
  [.register "a:r" "o" (.ofSeconds 300) (.ok .null),
    .register "b:q" "o" (.ofSeconds 300) (.ok .null), .start] ++
  List.replicate 7 Move.loop ++ List.replicate 4 (Move.work 0)

/-- The workers come to their end one after the other. -/
def endingMoves : List Move :=
  scarceMoves ++ List.replicate 5 (Move.work 0) ++ List.replicate 5 (Move.work 1) ++
    [Move.elapse 300000] ++ List.replicate 5 (Move.work 1)

set_option maxRecDepth 1000 in
theorem permits_are_conserved_of_scarceMoves :
    (∃ s, ∃ x : Metered, scarceMoves.foldlM Service.after? (.ofDispatcher
        (.initial scarceRegistry scarceSettings .unhindered .always .epoch)) = some s ∧
      x.service = s ∧ s.dispatcher.workers.map Worker.isHandling = [true, false] ∧
      s.dispatcher.hasFreePermit = false ∧ x.semaphore.free = 0 ∧ x.semaphore.lent.length = 1) ∧
    ∃ s, ∃ x : Metered, endingMoves.foldlM Service.after? (.ofDispatcher
        (.initial scarceRegistry scarceSettings .unhindered .always .epoch)) = some s ∧
      x.service = s ∧ s.dispatcher.started = 2 ∧ s.dispatcher.store.trail.length = 4 ∧
      s.dispatcher.lingering.length = 1 ∧ s.dispatcher.callsInProgress ≤ 1 ∧
      x.semaphore = .full 1 := by
  have hbusy : (scarceMoves.foldlM Service.after? (.ofDispatcher
      (.initial scarceRegistry scarceSettings .unhindered .always .epoch))).map (fun s =>
        (s.dispatcher.workers.map Worker.isHandling, s.dispatcher.hasFreePermit)) =
      some ([true, false], false) := by cbv
  have hended : (endingMoves.foldlM Service.after? (.ofDispatcher
      (.initial scarceRegistry scarceSettings .unhindered .always .epoch))).map (fun s =>
        (s.dispatcher.serials, s.dispatcher.started, s.dispatcher.store.trail.length,
          s.dispatcher.lingering.length)) =
      some ([], 2, 4, 1) := by cbv
  have hheeds : ((Service.ofDispatcher
      (.initial scarceRegistry scarceSettings .unhindered .always .epoch)).follow?
        Service.heedsLingering endingMoves).isSome = true := by cbv
  constructor
  · obtain ⟨s, hs, hview⟩ := Option.map_eq_some_iff.1 hbusy
    obtain ⟨hhandling, hfull⟩ := Prod.mk.inj hview
    obtain ⟨x, -, hx, -, -, -, hsound, -, hfree, -⟩ := permits_are_conserved (n := 0) rfl hs
    have htotal := hsound.total
    rw [hfull] at hfree
    simp only [Bool.false_eq_true, false_iff, Nat.not_lt, Nat.le_zero] at hfree
    exact ⟨s, x, hs, hx, hhandling, hfull, hfree, by omega⟩
  · obtain ⟨s, hs, hview⟩ := Option.map_eq_some_iff.1 hended
    obtain ⟨hserials, hview⟩ := Prod.mk.inj hview
    obtain ⟨hstarted, hview⟩ := Prod.mk.inj hview
    obtain ⟨htrail, hlingering⟩ := Prod.mk.inj hview
    obtain ⟨t, ht⟩ := Option.isSome_iff_exists.1 hheeds
    obtain rfl : s = t := Option.some.inj (hs.symm.trans (Service.foldlM_of_follow? ht))
    obtain ⟨x, -, hx, -, hcalls, -, -, -, -, hnone⟩ := permits_are_conserved (n := 0) rfl hs
    exact ⟨s, x, hs, hx, hstarted, htrail, hlingering, hcalls ht,
      hnone (List.map_eq_nil_iff.1 hserials)⟩

/-- The first handler is told to stop after a second; while it has not ended, the permit of
its worker goes to the next one, whose handler is called. -/
def heedlessMoves : List Move :=
  [.register "b:q" "o" (.ofSeconds 1) (.ok .null),
    .register "a:r" "o" (.ofSeconds 300) (.ok .null), .start] ++
  List.replicate 7 Move.loop ++ List.replicate 5 (Move.work 0) ++ [Move.elapse 1000] ++
  List.replicate 5 (Move.work 0) ++ List.replicate 4 (Move.work 1)

/-- With one permit, two calls are in progress. -/
theorem exceeds_cap_of_heedlessMoves :
    scarceSettings.permits? = some 1 ∧
    ∃ s, heedlessMoves.foldlM Service.after? (.ofDispatcher
        (.initial scarceRegistry scarceSettings .unhindered .always .epoch)) = some s ∧
      s.dispatcher.workers.map Worker.isHandling = [true] ∧
      s.dispatcher.lingering.map Event.tag = ["b:q"] ∧ s.dispatcher.callsInProgress = 2 := by
  have hview : (heedlessMoves.foldlM Service.after? (.ofDispatcher
      (.initial scarceRegistry scarceSettings .unhindered .always .epoch))).map (fun s =>
        (s.dispatcher.workers.map Worker.isHandling, s.dispatcher.lingering.map Event.tag,
          s.dispatcher.callsInProgress)) =
      some ([true], ["b:q"], 2) := by cbv
  obtain ⟨s, hs, heq⟩ := Option.map_eq_some_iff.1 hview
  obtain ⟨hhandling, heq⟩ := Prod.mk.inj heq
  obtain ⟨hlingering, hcalls⟩ := Prod.mk.inj heq
  exact ⟨rfl, s, hs, hhandling, hlingering, hcalls⟩

end Metered

end EventDispatch
