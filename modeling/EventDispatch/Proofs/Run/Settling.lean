import EventDispatch.Dispatch.Run
import EventDispatch.Proofs.Run.Tended

/-!
# How the service lets time pass

**Input.** A service that has come this far in a timely run and keeps the lead from
here on.

**Algorithm.** `settle` lets the loop and then each worker go on until it waits, and the
handlers end that were told to stop; `advance` goes from one timer to the next and
settles at each.

**Invariant.** At rest, every worker waits: for a permit, or in its handler, before its
limit.  Without a cap no worker waits for a permit.

**Results.** Whatever `settle` (`Steady.settle`) and `advance` (`Steady.advance`) do is
made of moves of a timely run, and of a prompt one without a cap.  So what holds in
such runs holds of a service that is driven in this way.
-/

namespace EventDispatch

/-- A worker that waits: in its handler, before its limit, or for a permit, which it
does not in a prompt run. -/
def Worker.rests (prompt : Bool) (uptime : Nat) (w : Worker) : Bool :=
  match w.stage with
  | .queued => !prompt
  | .opening _ => false
  | .handling _ _ _ limit => uptime < limit
  | .closing _ => false

namespace Dispatcher

/-- A worker that cannot go on waits; without a cap it does not wait for a permit. -/
theorem rests_of_workerStep_eq_none {d : Dispatcher} {w : Worker} {prompt : Bool}
    (hcap : prompt = true → d.settings.cap = none) (h : d.workerStep w = none) :
    w.rests prompt d.uptime = true := by
  unfold workerStep at h
  unfold Worker.rests
  split at h
  · next hstage =>
    rw [hstage]
    split at h
    · cases h
    · next hbusy =>
      cases prompt with
      | false => rfl
      | true => simp [hasFreePermit, Settings.permits?, hcap rfl] at hbusy
  · cases h
  · cases h
  · next hstage =>
    rw [hstage]
    unfold handlingStep at h
    split at h
    · simp at h
    · next hlimit => simpa using hlimit
  · cases h
  · cases h

/-- A step of a worker leaves the workers, the clock and the settings as they are. -/
theorem frame_of_workerStep {d d' : Dispatcher} {w : Worker} {stage? : Option Stage}
    (h : d.workerStep w = some (d', stage?)) :
    d'.workers = d.workers ∧ d'.uptime = d.uptime ∧ d'.settings = d.settings ∧
      d'.election = d.election := by
  cases stage? with
  | none =>
    obtain ⟨rfl, -⟩ := closing_of_workerStep h
    exact ⟨rfl, rfl, rfl, rfl⟩
  | some stage =>
    obtain ⟨hcore, -⟩ := progress_of_workerStep h [] []
    exact ⟨congrArg Core.workers hcore, congrArg Core.uptime hcore,
      congrArg Core.settings hcore, congrArg Core.election hcore⟩

/-- A worker whose handler is out of time tells it to stop and goes on without it. -/
theorem workerStep_of_overdue {d : Dispatcher} {w : Worker} {todo : List Action}
    {ending : Ending} {pause : Pause} {limit : Nat}
    (hstage : w.stage = .handling todo ending pause limit) (hover : limit ≤ d.uptime) :
    d.workerStep w = some ({ d with lingering := w.event :: d.lingering },
      some (.closing (timeoutActions d.settings.policy w.event))) := by
  simp only [workerStep, hstage, handlingStep, if_pos hover]
  rfl

/-- The worker of a number, if it is the only one of this number. -/
def Knows (d : Dispatcher) (w : Worker) : Prop :=
  w ∈ d.workers ∧ ∀ v ∈ d.workers, v.serial = w.serial → v = w

theorem Knows.find? {d : Dispatcher} {w : Worker} (h : d.Knows w) :
    (d.workers.find? fun v => v.serial = w.serial) = some w := by
  obtain ⟨v, hv⟩ : ∃ v, (d.workers.find? fun v => v.serial = w.serial) = some v :=
    Option.isSome_iff_exists.1 (List.find?_isSome.2 ⟨w, h.1, by simp⟩)
  have hserial : v.serial = w.serial := by simpa using List.find?_some hv
  rw [hv, h.2 v (List.mem_of_find?_eq_some hv) hserial]

theorem Knows.putWorker {d d' : Dispatcher} {w : Worker} (h : d.Knows w)
    (hworkers : d'.workers = d.workers) (stage : Stage) :
    (d'.putWorker { w with stage }).Knows { w with stage } := by
  refine ⟨List.mem_map.2 ⟨w, hworkers ▸ h.1, if_pos rfl⟩, fun v hv hserial => ?_⟩
  obtain ⟨u, -, rfl⟩ := List.mem_map.1 hv
  split
  · rfl
  · next hother =>
    rw [if_neg hother] at hserial
    exact absurd hserial hother

theorem mem_putWorker_of_ne {d d' : Dispatcher} {v w : Worker}
    (hworkers : d'.workers = d.workers) (hne : v.serial ≠ w.serial) :
    v ∈ (d'.putWorker w).workers ↔ v ∈ d.workers := by
  unfold Dispatcher.putWorker
  rw [hworkers]
  constructor
  · intro hv
    obtain ⟨u, hu, hput⟩ := List.mem_map.1 hv
    split at hput
    · exact absurd (congrArg Worker.serial hput).symm hne
    · exact hput ▸ hu
  · intro hv
    exact List.mem_map.2 ⟨v, hv, if_neg hne⟩

/-- Some workers went on, and those of them that are left rest; the others are as they
were. -/
structure Ran (prompt : Bool) (ws : List Worker) (d d' : Dispatcher) : Prop where
  uptime : d'.uptime = d.uptime
  settings : d'.settings = d.settings
  election : d'.election = d.election
  others : ∀ v, (∀ w ∈ ws, v.serial ≠ w.serial) → (v ∈ d'.workers ↔ v ∈ d.workers)
  rests : ∀ v ∈ d'.workers, ∀ w ∈ ws, v.serial = w.serial → v.rests prompt d'.uptime = true

theorem ran_nil (d : Dispatcher) (prompt : Bool) : Ran prompt [] d d :=
  ⟨rfl, rfl, rfl, fun _ _ => Iff.rfl, fun _ _ _ hw => by cases hw⟩

/-- The workers that go on later leave those at rest alone. -/
theorem Ran.append {prompt : Bool} {ws vs : List Worker} {d d₁ d₂ : Dispatcher}
    (h : Ran prompt ws d d₁) (h' : Ran prompt vs d₁ d₂)
    (hapart : ∀ w ∈ ws, ∀ v ∈ vs, w.serial ≠ v.serial) : Ran prompt (ws ++ vs) d d₂ where
  uptime := h'.uptime.trans h.uptime
  settings := h'.settings.trans h.settings
  election := h'.election.trans h.election
  others u hu := by
    rw [h'.others u fun v hv => hu v (List.mem_append_right ws hv)]
    exact h.others u fun w hw => hu w (List.mem_append_left vs hw)
  rests u hu w hw hserial := by
    rcases List.mem_append.1 hw with hearly | hlate
    · have hother : ∀ v ∈ vs, u.serial ≠ v.serial := by
        intro v hv
        rw [hserial]
        exact hapart w hearly v hv
      rw [h'.uptime]
      exact h.rests u ((h'.others u hother).1 hu) w hearly hserial
    · exact h'.rests u hu w hlate hserial

/-- A worker that went on a step and then until it rests, went on until it rests. -/
theorem Ran.of_putWorker {prompt : Bool} {d d₁ d₂ : Dispatcher} {w : Worker} {stage : Stage}
    (h : Ran prompt [{ w with stage }] (d₁.putWorker { w with stage }) d₂)
    (hframe : d₁.workers = d.workers ∧ d₁.uptime = d.uptime ∧ d₁.settings = d.settings ∧
      d₁.election = d.election) : Ran prompt [w] d d₂ where
  uptime := h.uptime.trans hframe.2.1
  settings := h.settings.trans hframe.2.2.1
  election := h.election.trans hframe.2.2.2
  others v hv := by
    have hne : v.serial ≠ w.serial := hv w List.mem_cons_self
    rw [h.others v fun u hu => by rw [List.mem_singleton.1 hu]; exact hne]
    exact mem_putWorker_of_ne hframe.1 hne
  rests v hv u hu hserial := by
    rw [List.mem_singleton.1 hu] at hserial
    exact h.rests v hv { w with stage } List.mem_cons_self hserial

theorem ran_dropWorker {prompt : Bool} {d : Dispatcher} (w : Worker) :
    Ran prompt [w] d (d.dropWorker w.serial) where
  uptime := rfl
  settings := rfl
  election := rfl
  others v hv := by
    have hne : v.serial ≠ w.serial := hv w List.mem_cons_self
    simp [dropWorker, hne]
  rests v hv u hu hserial := by
    rw [List.mem_singleton.1 hu] at hserial
    simp [dropWorker, hserial] at hv

theorem runWorker_waits {d : Dispatcher} {w : Worker} (h : d.workerStep w = none) :
    d.runWorker w = d := by
  rw [runWorker]
  split <;> simp_all

theorem runWorker_ends {d d' : Dispatcher} {w : Worker}
    (h : d.workerStep w = some (d', none)) : d.runWorker w = d'.dropWorker w.serial := by
  rw [runWorker]
  split <;> simp_all

theorem runWorker_goesOn {d d' : Dispatcher} {w : Worker} {stage : Stage}
    (h : d.workerStep w = some (d', some stage)) :
    d.runWorker w = (d'.putWorker { w with stage }).runWorker { w with stage } := by
  rw [runWorker]
  split <;> simp_all

/-- A worker that goes on until it waits rests, if it is left. -/
theorem ran_runWorker {prompt : Bool} {d : Dispatcher} {w : Worker} (h : d.Knows w)
    (hcap : prompt = true → d.settings.cap = none) :
    Ran prompt [w] d (d.runWorker w) := by
  induction d, w using runWorker.induct with
  | case1 d w hstep =>
    rw [runWorker_waits hstep]
    refine ⟨rfl, rfl, rfl, fun _ _ => Iff.rfl, fun v hv u hu hserial => ?_⟩
    rw [List.mem_singleton.1 hu] at hserial
    rw [h.2 v hv hserial]
    exact rests_of_workerStep_eq_none hcap hstep
  | case2 d w d' hstep =>
    obtain ⟨rfl, -⟩ := closing_of_workerStep hstep
    rw [runWorker_ends hstep]
    exact ran_dropWorker w
  | case3 d w d' stage hstep _ ih =>
    have hframe := frame_of_workerStep hstep
    rw [runWorker_goesOn hstep]
    refine (ih (h.putWorker hframe.1 stage) fun hprompt => ?_).of_putWorker hframe
    rw [← hcap hprompt, ← hframe.2.2.1]
    rfl

theorem Ran.knows {prompt : Bool} {ws : List Worker} {d d' : Dispatcher} {v : Worker}
    (h : Ran prompt ws d d') (hv : d.Knows v) (hapart : ∀ w ∈ ws, v.serial ≠ w.serial) :
    d'.Knows v := by
  refine ⟨(h.others v hapart).2 hv.1, fun u hu hserial => ?_⟩
  exact hv.2 u ((h.others u (hserial ▸ hapart)).1 hu) hserial

end Dispatcher

namespace Service

/-! ## The workers settle -/

/-- The moves of a timely run lead here, and whoever has the lead keeps it from here
on. -/
structure Steady (prompt : Bool) (s₀ s : Service) : Prop where
  reaches : Reaches (isTimely prompt) s₀ s
  leads : s.dispatcher.election.answer ≠ .ok false
  cap : prompt = true → s.dispatcher.settings.cap = none

section Workers

variable {prompt : Bool} {s₀ s : Service} {d : Dispatcher}

theorem after?_work {w : Worker} (h : s.dispatcher.Knows w) :
    s.after? (.work w.serial) =
      match s.dispatcher.workerStep w with
      | none => none
      | some (d', none) => some { s with dispatcher := d'.dropWorker w.serial }
      | some (d', some stage) => some { s with dispatcher := d'.putWorker { w with stage } } := by
  simp only [after?, Dispatcher.workOn?, h.find?]
  split <;> simp [*]

/-- Whatever a worker does until it waits is allowed at any time. -/
theorem reaches_runWorker {w : Worker}
    (hreach : Reaches (isTimely prompt) s₀ { s with dispatcher := d }) (h : d.Knows w) :
    Reaches (isTimely prompt) s₀ { s with dispatcher := d.runWorker w } := by
  induction d, w using Dispatcher.runWorker.induct with
  | case1 d w hstep =>
    rw [Dispatcher.runWorker_waits hstep]
    exact hreach
  | case2 d w d' hstep =>
    rw [Dispatcher.runWorker_ends hstep]
    refine .move (.work w.serial) hreach rfl ?_
    rw [after?_work h, hstep]
  | case3 d w d' stage hstep _ ih =>
    rw [Dispatcher.runWorker_goesOn hstep]
    refine ih (.move (.work w.serial) hreach rfl ?_)
      (h.putWorker (Dispatcher.frame_of_workerStep hstep).1 stage)
    rw [after?_work h, hstep]

theorem reaches_runFrom {ws : List Worker}
    (hreach : Reaches (isTimely prompt) s₀ { s with dispatcher := d })
    (hcap : prompt = true → d.settings.cap = none)
    (hknown : ∀ w ∈ ws, d.Knows w) (hapart : ws.Pairwise fun v w => v.serial ≠ w.serial) :
    Reaches (isTimely prompt) s₀ { s with dispatcher := ws.foldl Dispatcher.runWorker d } ∧
      Dispatcher.Ran prompt ws d (ws.foldl Dispatcher.runWorker d) := by
  induction ws generalizing d with
  | nil => exact ⟨hreach, Dispatcher.ran_nil d prompt⟩
  | cons w rest ih =>
    obtain ⟨hhead, htail⟩ := List.pairwise_cons.1 hapart
    have hw : d.Knows w := hknown w List.mem_cons_self
    have hran : Dispatcher.Ran prompt [w] d (d.runWorker w) := Dispatcher.ran_runWorker hw hcap
    have hknownRest : ∀ v ∈ rest, (d.runWorker w).Knows v := by
      intro v hv
      refine hran.knows (hknown v (List.mem_cons_of_mem w hv)) fun u hu => ?_
      rw [List.mem_singleton.1 hu]
      exact (hhead v hv).symm
    obtain ⟨hlater, hranLater⟩ := ih (reaches_runWorker hreach hw)
      (fun hprompt => hran.settings ▸ hcap hprompt) hknownRest htail
    refine ⟨hlater, hran.append hranLater fun u hu v hv => ?_⟩
    rw [List.mem_singleton.1 hu]
    exact hhead v hv

/-- The handlers that were told to stop may end at any time. -/
theorem reaches_vanished (hreach : Reaches (isTimely prompt) s₀ { s with dispatcher := d }) :
    Reaches (isTimely prompt) s₀ { s with dispatcher := { d with lingering := [] } } := by
  generalize hlingering : d.lingering = lingering
  induction lingering generalizing d with
  | nil =>
    rw [← hlingering]
    exact hreach
  | cons e rest ih =>
    have hrest : (d.vanish 0).lingering = rest := by simp [Dispatcher.vanish, hlingering]
    exact ih (d := d.vanish 0) (.move (.vanish 0) hreach rfl rfl) hrest

end Workers

/-! ## The service settles -/

section Advance

variable {registry : Registry} {settings : Settings} {access : Access} {election : Election}
  {now : Instant} {prompt : Bool} {s₀ s : Service}

/-- Nothing is left to do at present. -/
def Rests (s : Service) (prompt : Bool) : Prop :=
  ∀ w ∈ s.dispatcher.workers, w.rests prompt s.dispatcher.uptime = true

theorem Steady.loopStep (h : Steady prompt s₀ s) {s' : Service} (hstep : s.loopStep = some s') :
    Steady prompt s₀ s' := by
  have hallowed : s.core.allows prompt .loop = true := by
    cases hanswer : s.core.election.answer with
    | error cause => simp [Core.allows, hanswer]
    | ok leads =>
      cases leads with
      | true => simp [Core.allows, hanswer]
      | false => exact absurd hanswer h.leads
  have hcore : s.core.Step .loop s'.core := step_of_loopStep hstep
  have helection : s'.dispatcher.election = s.dispatcher.election := hcore.election_eq (by simp)
  have hsettings : s'.dispatcher.settings = s.dispatcher.settings := hcore.settings_eq
  refine ⟨.move .loop h.reaches ?_ hstep, ?_, ?_⟩
  · exact Bool.and_eq_true_iff.2 ⟨rfl, hallowed⟩
  · rw [helection]
    exact h.leads
  · rw [hsettings]
    exact h.cap

theorem Steady.runLoop (h : Steady prompt s₀ s) : Steady prompt s₀ s.runLoop := by
  induction s using Service.runLoop.induct with
  | case1 s hstep =>
    rw [Service.runLoop]
    split <;> simp_all
  | case2 s s' hstep _ ih =>
    have hrun : s.runLoop = s'.runLoop := by
      rw [Service.runLoop]
      split <;> simp_all
    rw [hrun]
    exact ih (h.loopStep hstep)

/-- A service that settles makes moves of such a run, and comes to rest. -/
theorem Steady.settle
    (h : Steady prompt (.ofDispatcher (.initial registry settings access election now)) s) :
    Steady prompt (.ofDispatcher (.initial registry settings access election now)) s.settle ∧
      s.settle.Rests prompt := by
  have hlooped := h.runLoop
  obtain ⟨-, htended, -⟩ := tended_of_reaches hlooped.reaches
  have hknown : ∀ w ∈ s.runLoop.dispatcher.workers, s.runLoop.dispatcher.Knows w :=
    fun w hw => ⟨hw, fun v hv => htended.staffed.eq_of_serial hv hw⟩
  obtain ⟨hreaches, hran⟩ := reaches_runFrom (s := s.runLoop) hlooped.reaches hlooped.cap hknown
    htended.serials
  refine ⟨⟨reaches_vanished hreaches, ?_, ?_⟩, ?_⟩
  · exact hran.election ▸ hlooped.leads
  · exact hran.settings ▸ hlooped.cap
  · intro w hw
    by_cases hold : ∃ v ∈ s.runLoop.dispatcher.workers, w.serial = v.serial
    · obtain ⟨v, hv, hserial⟩ := hold
      exact hran.rests w hw v hv hserial
    · have hnone : ∀ v ∈ s.runLoop.dispatcher.workers, w.serial ≠ v.serial :=
        fun v hv hserial => hold ⟨v, hv, hserial⟩
      exact absurd rfl (hnone w ((hran.others w hnone).1 hw))

/-- Who rests goes along with time up to its next timer. -/
theorem maySpend_of_rests {w : Worker} {uptime milliseconds : Nat}
    (hrests : w.rests prompt uptime = true)
    (hsoon : ∀ t ∈ w.timers, uptime < t → uptime + milliseconds ≤ t) :
    w.maySpend prompt uptime milliseconds = true := by
  cases hstage : w.stage with
  | queued => simpa [Worker.rests, Worker.maySpend, hstage] using hrests
  | opening todo => simp [Worker.rests, hstage] at hrests
  | handling todo ending pause limit =>
    simp only [Worker.rests, hstage, decide_eq_true_eq] at hrests
    have hlimit : limit ∈ w.timers := by
      unfold Worker.timers
      rw [hstage]
      cases pause <;> simp
    simpa [Worker.maySpend, hstage] using hsoon limit hlimit hrests
  | closing todo => simp [Worker.rests, hstage] at hrests

theorem Steady.elapse (h : Steady prompt s₀ s) (hrests : s.Rests prompt) {milliseconds : Nat}
    (hsoon : ∀ t ∈ s.timers, s.dispatcher.uptime < t → s.dispatcher.uptime + milliseconds ≤ t) :
    Steady prompt s₀ (s.elapse milliseconds) := by
  have hspends : s.core.allows prompt (.elapse milliseconds) = true := by
    refine List.all_eq_true.2 fun w hw => maySpend_of_rests (hrests w hw) fun t ht => ?_
    have hmem : t ∈ s.dispatcher.timers := List.mem_flatMap.2 ⟨w, hw, ht⟩
    refine hsoon t ?_
    unfold Service.timers
    split
    · exact List.mem_cons_of_mem _ hmem
    · exact hmem
  refine ⟨.move (.elapse milliseconds) h.reaches ?_ rfl, h.leads, h.cap⟩
  exact Bool.and_eq_true_iff.2 ⟨rfl, hspends⟩

theorem untilNextTimer?_eq_none (h : s.untilNextTimer? = none) :
    ∀ t ∈ s.timers, ¬s.dispatcher.uptime < t := by
  unfold untilNextTimer? at h
  simpa [List.filter_eq_nil_iff] using h

theorem untilNextTimer?_eq_some {wait : Nat} (h : s.untilNextTimer? = some wait) :
    0 < wait ∧
      ∀ t ∈ s.timers, s.dispatcher.uptime < t → s.dispatcher.uptime + wait ≤ t := by
  obtain ⟨first, hfirst, rfl⟩ := Option.map_eq_some_iff.1 h
  obtain ⟨hmem, hleast⟩ := List.min?_eq_some_iff.1 hfirst
  have hcoming : s.dispatcher.uptime < first := by simpa using (List.mem_filter.1 hmem).2
  refine ⟨by omega, fun t ht hlater => ?_⟩
  have := hleast t (List.mem_filter.2 ⟨ht, by simpa using hlater⟩)
  omega

/-- A service that settles at each timer makes moves of a timely run, and of a prompt
one if it has no cap. -/
theorem Steady.advance {milliseconds : Nat}
    (h : Steady prompt (.ofDispatcher (.initial registry settings access election now)) s)
    (hrests : s.Rests prompt) :
    Steady prompt (.ofDispatcher (.initial registry settings access election now))
        (s.advance milliseconds) ∧
      (s.advance milliseconds).Rests prompt := by
  induction s, milliseconds using Service.advance.induct with
  | case1 s milliseconds hnone =>
    rw [Service.advance, hnone]
    refine (h.elapse hrests fun t ht hlater => ?_).settle
    exact absurd hlater (untilNextTimer?_eq_none hnone t ht)
  | case2 s milliseconds wait hsome hwait ih =>
    rw [Service.advance, hsome]
    dsimp only
    rw [if_pos hwait]
    obtain ⟨hsettled, hsettledRests⟩ :=
      (h.elapse hrests (untilNextTimer?_eq_some hsome).2).settle
    exact ih hsettled hsettledRests
  | case3 s milliseconds wait hsome hwait =>
    rw [Service.advance, hsome]
    dsimp only
    rw [if_neg hwait]
    obtain ⟨hpositive, hleast⟩ := untilNextTimer?_eq_some hsome
    refine (h.elapse hrests fun t ht hlater => ?_).settle
    have := hleast t ht hlater
    omega

end Advance

end Service
end EventDispatch
