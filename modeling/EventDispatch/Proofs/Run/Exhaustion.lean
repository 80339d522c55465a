import EventDispatch.Proofs.Run.Budget
import EventDispatch.Proofs.Run.Ending
import EventDispatch.Proofs.Run.Overlap

/-!
# Bounded retries

**Input.** A run of one dispatcher whose store is within reach, in which the workers of
each cycle end before the next cycle begins, and nothing that is being run is reset.
Handlers log errors and fatal failures as often as they like, and end in any way.

**Invariant.** The budget of retries, for whole runs.  For a worker that has spent the
last retry: once its call can only end in a retry or out of time, what the worker has
left to do fails the event (`Worker.Dooms`).

**Results.** `retries_are_bounded`: the handler of an event is called at most once more
than there are retries, a call comes with at least as many retries as there were calls
before it, and exactly as many for a steady event, whose deadline never becomes zero.
The count of retries never exceeds the bound by more than one, and not at all while the
event is to be run.  Where the last call ends in a retry or out of time, the event has
failed once the worker is done.

Every event is steady if the grace is not negative.  Otherwise a deadline may come to zero,
and a worker without any time spends a retry without a call: in
`callSkipped_of_stubbornMoves` the second call comes with two retries.
-/

namespace EventDispatch

/-- The call of the handler can only end in a retry, or out of time. -/
def Worker.endsInVain (w : Worker) (uptime : Nat) : Bool :=
  match w.stage with
  | .handling [] (.returned (.ok .retry)) _ _ => true
  | .handling _ _ _ limit => limit ≤ uptime
  | _ => false

theorem Worker.endsInVain_iff {w : Worker} {todo : List Action} {ending : Ending}
    {pause : Pause} {limit : Nat} (hstage : w.stage = .handling todo ending pause limit)
    (uptime : Nat) :
    w.endsInVain uptime = true ↔
      limit ≤ uptime ∨ todo = [] ∧ ending = .returned (.ok .retry) := by
  unfold endsInVain
  rw [hstage]
  split
  · next heq =>
    cases heq
    simp
  · next hother heq =>
    cases heq
    simp only [decide_eq_true_eq, iff_self_or]
    exact fun hretry => (hother hretry.1 hretry.2).elim
  · next hnone => exact absurd rfl (hnone _ _ _ _)

theorem Worker.handling_of_endsInVain {w : Worker} {uptime : Nat}
    (h : w.endsInVain uptime = true) :
    ∃ todo ending pause limit, w.stage = .handling todo ending pause limit := by
  cases hstage : w.stage with
  | handling todo ending pause limit => exact ⟨todo, ending, pause, limit, rfl⟩
  | queued | opening | closing => simp [endsInVain, hstage] at h

theorem Worker.Keeps.called {w : Worker} {most : Int} {steady : Bool} {calls : Nat} {e : Event}
    (h : w.Keeps most steady calls e) (hrunning : w.isHandling = true) :
    Standing.Called w.event most steady calls := by
  cases hstage : w.stage with
  | handling =>
    simp only [Keeps, hstage] at h
    exact h.1
  | queued | opening | closing => simp [isHandling, hstage] at hrunning

/-- What a worker has left to do fails its event. -/
def Worker.Dooms (w : Worker) (uptime : Nat) (e : Event) : Prop :=
  match w.stage with
  | .handling _ _ _ _ => w.endsInVain uptime = true
  | .closing todo => (standAfter e.standing todo).status = .failed
  | _ => False

theorem Worker.Dooms.mono {w : Worker} {e : Event} {uptime uptime' : Nat}
    (h : w.Dooms uptime e) (hle : uptime ≤ uptime') : w.Dooms uptime' e := by
  cases hstage : w.stage with
  | queued | opening => simp [Dooms, hstage] at h
  | handling =>
    simp only [Dooms, hstage, w.endsInVain_iff hstage] at h ⊢
    exact h.imp_left fun hlate => Nat.le_trans hlate hle
  | closing =>
    simp only [Dooms, hstage] at h ⊢
    exact h

namespace Core

variable {c c' : Core} {w : Worker} {stage : Stage} {store : Store} {e : Event} {m : Move}

/-- A step of a worker that dooms its event leaves it doomed. -/
theorem Progress.dooms (h : c.Progress w stage store) (hids : c.store.DistinctIds)
    (hcloses : c.Closes w store) {most : Int} {steady : Bool} {calls : Nat}
    (he : e ∈ c.store.events) (hid : e.id = w.event.id)
    (hkeeps : w.Keeps most steady calls e)
    (hspent : c.settings.policy.maxRetries ≤ w.event.retries)
    (hdooms : w.Dooms c.uptime e) {e' : Event} (he' : e' ∈ store.events)
    (hid' : e'.id = w.event.id) : Worker.Dooms { w with stage } c.uptime e' := by
  cases h with
  | admitted hstage | opens hstage | calls _ hstage | neverCalls hstage =>
    simp [Worker.Dooms, hstage] at hdooms
  | timesOut hstage =>
    simp only [Worker.Keeps, hstage] at hkeeps
    rw [hids.eq_of_id_eq he' he (hid'.trans hid.symm)]
    exact hkeeps.2.2.failed_retryActions hspent _
  | returns hstage hlimit =>
    simp only [Worker.Keeps, hstage] at hkeeps
    simp only [Worker.Dooms, hstage, w.endsInVain_iff hstage] at hdooms
    rcases hdooms with hlate | ⟨-, rfl⟩
    · omega
    · rw [hids.eq_of_id_eq he' he (hid'.trans hid.symm)]
      exact hkeeps.2.2.failed_retryActions hspent none
  | waits hstage =>
    simp only [Worker.Dooms, hstage, w.endsInVain_iff hstage] at hdooms
    exact (Worker.endsInVain_iff rfl c.uptime).2 hdooms
  | handles hstage hlimit =>
    simp only [Worker.Dooms, hstage, w.endsInVain_iff hstage] at hdooms
    rcases hdooms with hlate | ⟨hdone, -⟩
    · omega
    · cases hdone
  | closes hstage =>
    simp only [Worker.Dooms, hstage] at hdooms ⊢
    rw [hcloses _ _ hstage e he e' he' hid hid']
    exact hdooms

/-- The event has failed, or its worker sees to that. -/
def Doomed (c : Core) (serial : Nat) (target : Event) : Prop :=
  (∃ e ∈ c.store.events, e.id = target.id ∧ e.status = .failed) ∨
    ∃ w ∈ c.workers, w.serial = serial ∧ w.event = target ∧
      ∀ e ∈ c.store.events, e.id = target.id → w.Dooms c.uptime e

section Doom

variable {serial : Nat} {target : Event} {steady : Uuid → Bool} {calls calls' : Uuid → Nat}

/-- A step of the worker itself. -/
theorem Doomed.work (hw : w ∈ c.workers)
    (hdooms : ∀ e ∈ c.store.events, e.id = w.event.id → w.Dooms c.uptime e)
    (hbudgeted : c.Budgeted steady calls) (hstep : c.Step (.work w.serial) c')
    (hcloses : c.Closes w c'.store)
    (hspent : c.settings.policy.maxRetries ≤ w.event.retries) :
    c'.Doomed w.serial w.event := by
  obtain ⟨e, he, hid, hkeeps⟩ := hbudgeted.staffed.fitted w hw
  generalize hm : Move.work w.serial = m at hstep
  cases hstep with
  | keep => exact Or.inr ⟨w, hw, rfl, rfl, hdooms⟩
  | repaused => exact Or.inr ⟨w, hw, rfl, rfl, hdooms⟩
  | @worked v stage _ hv hprogress =>
    cases hbudgeted.staffed.eq_of_serial hw hv (Move.work.inj hm)
    refine Or.inr ⟨{ w with stage }, ?_, rfl, rfl, fun e' he' hid' => ?_⟩
    · exact List.mem_map.2 ⟨w, hw, if_pos rfl⟩
    · exact hprogress.dooms hbudgeted.ids hcloses he hid hkeeps hspent (hdooms e he hid) he' hid'
  | @ended v hv hstage =>
    cases hbudgeted.staffed.eq_of_serial hw hv (Move.work.inj hm)
    have hfailed := hdooms e he hid
    simp only [Worker.Dooms, hstage] at hfailed
    exact Or.inl ⟨e, he, hid, hfailed⟩
  | _ => cases hm

/-- Every such move leaves the event doomed. -/
theorem Doomed.step (h : c.Doomed serial target) (hbudgeted : c.Budgeted steady calls)
    (hbudgeted' : c'.Budgeted steady calls') (hstep : c.Step m c')
    (hcloses : ∀ w ∈ c.workers, m = .work w.serial → c.Closes w c'.store)
    (hacts : ∀ p e action, m ≠ .act p e action)
    (hstale : m = .resetStale → ∀ e ∈ c.store.events, e.status ≠ .processing)
    (hbegins : m = .loop → c' = c ∨ c.candidates ≠ [] ∨ c.workers = [])
    (hspent : c.settings.policy.maxRetries ≤ target.retries) : c'.Doomed serial target := by
  rcases h with ⟨e, he, hid, hfailed⟩ | ⟨w, hw, rfl, rfl, hdooms⟩
  · have hkept := hstep.keeps_ended hbudgeted.ids he (by rw [hfailed]; rfl)
    exact Or.inl ⟨e, hkept, hid, hfailed⟩
  · by_cases hown : m = .work w.serial
    · subst hown
      exact Doomed.work hw hdooms hbudgeted hstep (hcloses w hw rfl) hspent
    · obtain ⟨e, he, hid, -⟩ := hbudgeted.staffed.fitted w hw
      have hlead : c.leading = false → c'.leading = true → e.status ≠ .processing := by
        intro hbefore hlater
        obtain ⟨hloop, hne, hcandidates⟩ := hstep.begins_of_lead hbefore hlater
        rcases hbegins hloop with heq | hlisted | hworkers
        · exact absurd heq hne
        · exact absurd hcandidates hlisted
        · rw [hworkers] at hw
          cases hw
      have hkept := hbudgeted.staffed.leaves_event hbudgeted.ids hstep hw hown hacts he hid
        (fun hm => hstale hm e he) hlead
      refine Or.inr ⟨w, hstep.keeps_worker hw hown, rfl, rfl, fun e' he' hid' => ?_⟩
      rw [hbudgeted'.ids.eq_of_id_eq he' hkept (hid'.trans hid.symm)]
      exact (hdooms e he hid).mono hstep.uptime_le

end Doom

end Core

namespace Service

section Exhaustion

variable {steady : Uuid → Bool} {s₀ s s' : Service} {w : Worker}

theorem closes_of_work (hbudgeted : s.core.Budgeted steady s.dispatcher.callsFor)
    (haccess : s.dispatcher.access = .unhindered) (hw : w ∈ s.dispatcher.workers)
    (hafter : s.after? (.work w.serial) = some s') : s.core.Closes w s'.core.store := by
  obtain ⟨d, hwork, rfl⟩ := Option.map_eq_some_iff.1 hafter
  obtain ⟨v, hv, hserial, hends⟩ := Dispatcher.worker_of_workOn? hwork
  cases hbudgeted.staffed.eq_of_serial hw hv hserial.symm
  rcases hends with ⟨hstage, rfl⟩ | ⟨d₁, stage, hstep, rfl⟩
  · intro action rest hclosing
    rw [hstage] at hclosing
    cases hclosing
  · exact Dispatcher.closes_of_workerStep haccess hbudgeted.ids hstep _ _

/-- Wherever an orderly run leads, a doomed event stays doomed. -/
theorem doomed_of_reaches {serial : Nat} {target : Event}
    (hbudgeted : s.core.Budgeted steady s.dispatcher.callsFor)
    (haccess : s.dispatcher.access = .unhindered)
    (hbound : 0 ≤ s.core.settings.policy.maxRetries)
    (hspent : s.core.settings.policy.maxRetries ≤ target.retries)
    (hdoomed : s.core.Doomed serial target) (h : Reaches (isOrderly steady) s s') :
    s'.core.Doomed serial target := by
  have hrun := h.induct (P := fun t => t.dispatcher.access = .unhindered ∧
    t.core.Budgeted steady t.dispatcher.callsFor ∧ t.core.settings = s.core.settings ∧
    t.core.Doomed serial target) ⟨haccess, hbudgeted, rfl, hdoomed⟩ ?_
  · exact hrun.2.2.2
  · rintro t m t' ⟨haccess, hbudgeted, hsettings, hdoomed⟩ hm hafter
    rw [← hsettings] at hbound hspent
    obtain ⟨haccess', hbudgeted'⟩ := budgeted_after? hbudgeted haccess hbound hm hafter
    have hstep := step_of_after? (Bool.and_eq_true_iff.1 hm).1 hafter
    refine ⟨haccess', hbudgeted', hstep.settings_eq.trans hsettings, ?_⟩
    refine hdoomed.step hbudgeted hbudgeted' hstep ?_ ?_ ?_ ?_ hspent
    · rintro w hw rfl
      exact closes_of_work hbudgeted haccess hw hafter
    · rintro p e action rfl
      cases (Bool.and_eq_true_iff.1 hm).2
    · rintro rfl e he
      simpa using List.all_eq_true.1 (Bool.and_eq_true_iff.1 hm).2 e he
    · rintro rfl
      exact begins_of_isOrderly hm hafter

theorem letsWork_isOrderly : LetsWork (isOrderly steady) := ⟨fun _ _ => rfl, fun _ _ => rfl⟩

/-- A worker whose handler runs can end, at the latest when its time is over. -/
theorem ends_of_handling {todo : List Action} {ending : Ending} {pause : Pause} {limit : Nat}
    (hknown : s.dispatcher.Knows w) (hstage : w.stage = .handling todo ending pause limit) :
    ∃ s', Reaches (isOrderly steady) s s' ∧
      ∀ v ∈ s'.dispatcher.workers, v.serial ≠ w.serial := by
  obtain ⟨s', hreach, hserials⟩ := letsWork_isOrderly.ends_of_handling .refl hknown hstage
  refine ⟨s', hreach, fun v hv => ?_⟩
  have hleft : v.serial ∈ s'.dispatcher.serials := List.mem_map_of_mem hv
  rw [hserials] at hleft
  simpa using (List.mem_filter.1 hleft).2

variable {registry : Registry} {settings : Settings} {election : Election} {now : Instant}

/-- The handler of an event is called at most once more than the policy has retries, with
at least as many retries as there were calls before, and exactly as many for a steady
event.  No count of retries exceeds the bound by more than one, and between the cycles no
event that is to be run exceeds it at all.  Where the last call can only end in a retry or
out of time, the worker can end, and its event has failed then. -/
theorem retries_are_bounded (hbound : 0 ≤ settings.policy.maxRetries)
    (h : Reaches (isOrderly steady)
      (.ofDispatcher (.initial registry settings .unhindered election now)) s) :
    (∀ w ∈ s.dispatcher.workers, w.isHandling = true →
      s.dispatcher.callsFor w.event.id ≤ w.event.retries + 1 ∧
      (steady w.event.id = true → s.dispatcher.callsFor w.event.id = w.event.retries + 1)) ∧
    (∀ id, s.dispatcher.callsFor id ≤ settings.policy.maxRetries + 1) ∧
    (∀ e ∈ s.dispatcher.store.events, e.retries ≤ settings.policy.maxRetries + 1) ∧
    (s.dispatcher.workers = [] → ∀ e ∈ s.dispatcher.store.events,
      e.status = .new ∨ e.status = .pending → e.retries ≤ settings.policy.maxRetries) ∧
    ∀ w ∈ s.dispatcher.workers,
      s.dispatcher.callsFor w.event.id = settings.policy.maxRetries + 1 →
      w.endsInVain s.dispatcher.uptime = true →
        (∃ s', Reaches (isOrderly steady) s s' ∧
          ∀ v ∈ s'.dispatcher.workers, v.serial ≠ w.serial) ∧
        ∀ s', Reaches (isOrderly steady) s s' →
          (∀ v ∈ s'.dispatcher.workers, v.serial ≠ w.serial) →
            ∃ e ∈ s'.dispatcher.store.events, e.id = w.event.id ∧ e.status = .failed := by
  obtain ⟨haccess, hbudgeted, hsettings⟩ := budgeted_of_reaches hbound h
  subst hsettings
  have hcalled : ∀ w ∈ s.dispatcher.workers, w.isHandling = true →
      Standing.Called w.event s.core.settings.policy.maxRetries (steady w.event.id)
        (s.dispatcher.callsFor w.event.id) := by
    intro w hw hrunning
    obtain ⟨_, -, -, hkeeps⟩ := hbudgeted.staffed.fitted w hw
    exact hkeeps.called hrunning
  refine ⟨fun w hw hrunning => ?_, fun id => hbudgeted.calls_le hbound id,
    fun e he => (hbudgeted.le he).1, fun hnone e he hready => ?_, fun w hw hlast hvain => ?_⟩
  · exact ⟨(hcalled w hw hrunning).counted, (hcalled w hw hrunning).exact⟩
  · have hrests := hbudgeted.idle e he fun w hw => by
      rw [show s.core.workers = [] from hnone] at hw
      cases hw
    exact (hrests.of_ready hready).1
  · obtain ⟨todo, ending, pause, limit, hstage⟩ := Worker.handling_of_endsInVain hvain
    have hcounted := (hcalled w hw (by simp [Worker.isHandling, hstage])).counted
    have hspent : s.core.settings.policy.maxRetries ≤ w.event.retries := by omega
    have hknown : s.dispatcher.Knows w :=
      ⟨hw, fun v hv hserial => hbudgeted.staffed.eq_of_serial hv hw hserial⟩
    have hdoomed : s.core.Doomed w.serial w.event := by
      refine Or.inr ⟨w, hw, rfl, rfl, fun e _ _ => ?_⟩
      simp only [Worker.Dooms, hstage]
      exact hvain
    refine ⟨ends_of_handling hknown hstage, fun s' hreach hgone => ?_⟩
    rcases doomed_of_reaches hbudgeted haccess hbound hspent hdoomed hreach with
      hfailed | ⟨v, hv, hserial, -⟩
    · exact hfailed
    · exact absurd hserial (hgone v hv)

end Exhaustion

/-- A handler that logs an error and wants its event run again. -/
def stubbornHandler : Handler :=
  .ofScripts [⟨[.act (.log .error "broken")], .outcome .retry⟩]

def stubbornStart (policy : Policy) : Service :=
  .ofDispatcher
    (.initial (laneOf stubbornHandler) ⟨1000, policy, none⟩ .unhindered .always .epoch)

/-- An event is registered and the loop starts. -/
def stubbornMoves : List Move :=
  [.register "a:r" "o" (.ofSeconds 300) (.ok .null), .start, .loop, .loop]

/-- After a long while a cycle claims the event, and its worker takes some steps. -/
def roundMoves (serial steps : Nat) : List Move :=
  [.elapse 1000000, .loop, .loop, .loop, .loop] ++ List.replicate steps (.work serial)

/-- The last call that one retry allows is about to end, and once more in a retry. -/
theorem retries_are_bounded_of_stubbornMoves :
    (0 : Int) ≤ 1 ∧
    ∃ s, Reaches (isOrderly fun _ => true) (stubbornStart ⟨.ofSeconds 180, 1⟩) s ∧
      (s.dispatcher.workers.map fun w =>
        (s.dispatcher.callsFor w.event.id, w.endsInVain s.dispatcher.uptime)) = [(2, true)] ∧
      (∀ w ∈ s.dispatcher.workers, w.isHandling = true →
        s.dispatcher.callsFor w.event.id ≤ w.event.retries + 1 ∧
        (true = true → s.dispatcher.callsFor w.event.id = w.event.retries + 1)) ∧
      (∀ id, s.dispatcher.callsFor id ≤ (1 : Int) + 1) ∧
      (∀ e ∈ s.dispatcher.store.events, e.retries ≤ 1 + 1) ∧
      (s.dispatcher.workers = [] → ∀ e ∈ s.dispatcher.store.events,
        e.status = .new ∨ e.status = .pending → e.retries ≤ 1) ∧
      ∀ w ∈ s.dispatcher.workers, s.dispatcher.callsFor w.event.id = (1 : Int) + 1 →
        w.endsInVain s.dispatcher.uptime = true →
          (∃ s', Reaches (isOrderly fun _ => true) s s' ∧
            ∀ v ∈ s'.dispatcher.workers, v.serial ≠ w.serial) ∧
          ∀ s', Reaches (isOrderly fun _ => true) s s' →
            (∀ v ∈ s'.dispatcher.workers, v.serial ≠ w.serial) →
              ∃ e ∈ s'.dispatcher.store.events, e.id = w.event.id ∧ e.status = .failed := by
  have hrun : ((stubbornStart ⟨.ofSeconds 180, 1⟩).follow? (isOrderly fun _ => true)
      (stubbornMoves ++ roundMoves 0 10 ++ roundMoves 1 7)).map (fun s =>
        s.dispatcher.workers.map fun w =>
          (s.dispatcher.callsFor w.event.id, w.endsInVain s.dispatcher.uptime)) =
      some [(2, true)] := by cbv
  obtain ⟨s, hs, hview⟩ := Option.map_eq_some_iff.1 hrun
  have hreaches : Reaches (isOrderly fun _ => true) (stubbornStart ⟨.ofSeconds 180, 1⟩) s :=
    Reaches.refl.follow? hs
  exact ⟨by decide, s, hreaches, hview, retries_are_bounded (by decide) hreaches⟩

/-- The grace takes from the deadline all that it has.  The second time the worker has no
time at all and spends a retry without a call, and so the second call is the one with two
retries. -/
theorem callSkipped_of_stubbornMoves :
    ∃ s, Reaches (isOrderly fun _ => false) (stubbornStart ⟨.ofSeconds (-300), 5⟩) s ∧
      ∃ w ∈ s.dispatcher.workers, w.isHandling = true ∧
        s.dispatcher.callsFor w.event.id = 2 ∧ w.event.retries = 2 := by
  have hrun : ((stubbornStart ⟨.ofSeconds (-300), 5⟩).follow? (isOrderly fun _ => false)
      (stubbornMoves ++ roundMoves 0 10 ++ roundMoves 1 8 ++ roundMoves 2 4)).map (fun s =>
        s.dispatcher.workers.any fun w =>
          w.isHandling && s.dispatcher.callsFor w.event.id = 2 && w.event.retries = 2) =
      some true := by cbv
  obtain ⟨s, hs, hany⟩ := Option.map_eq_some_iff.1 hrun
  obtain ⟨w, hw, hall⟩ := List.any_eq_true.1 hany
  simp only [Bool.and_eq_true, decide_eq_true_eq] at hall
  exact ⟨s, Reaches.refl.follow? hs, w, hw, hall.1.1, hall.1.2, hall.2⟩

end Service
end EventDispatch
