import EventDispatch.Proofs.Run.Budget

/-!
# Where workers come from

**Input.** Any run of a service, with any moves: events are recorded, classes paused and
resumed, the election and the store change their answers, workers go on.

**Algorithm.** A cycle reads the paused classes and the time as it begins, and lists its
candidates.  It then goes through them one by one, while anything else may happen.

**Invariant.** Each candidate was seen by the cycle under way as it began, and each worker
by the cycle that claimed its event (`Service.Traced`).

**Results.** Every move keeps this (`Traced.after?`).  So the event that a worker runs was
new or overdue as the cycle of its claim began, and its class was not paused then.
-/

namespace EventDispatch

/-- What a cycle lists may run: it is new or overdue, and its class is not paused. -/
theorem Store.admitted_of_mem_dispatchable {s : Store} {r : Registry} {paused : List EventClass}
    {now : Instant} {e : Event} (he : e ∈ s.dispatchable (r.filterFor paused) now) :
    e ∈ s.events ∧
      (e.status = .new ∨
        e.status = .pending ∧ ∃ due, e.dueAt? = some due ∧ due < now) ∧
      ∀ entry, r.find? e.tag = some entry → entry.eventClass ∉ paused := by
  obtain ⟨hmem, hready⟩ := mem_of_mem_dispatchable he
  refine ⟨hmem, ?_, fun entry hentry hpaused => ?_⟩
  · rcases hready with ⟨hpending, hdue⟩ | hnew
    · obtain ⟨due, hdueAt, hlt⟩ := (Option.any_eq_true _ _).1 hdue
      exact Or.inr ⟨hpending, due, hdueAt, by simpa using hlt⟩
    · exact Or.inl hnew
  · have hunpaused := Selection.isPaused_eq_false_of_mem_take he
    have hregistered : (e.tag, entry) ∈ r.entries := by
      obtain ⟨before, after, heq, -⟩ := List.lookup_eq_some_iff.1 hentry
      rw [heq]
      exact List.mem_append_right before List.mem_cons_self
    have hlisted : e.tag ∈ r.tagsIn paused :=
      List.mem_map.2 ⟨_, List.mem_filter.2 ⟨hregistered, by simpa using hpaused⟩, rfl⟩
    simp [DispatchFilter.isPaused, Registry.filterFor, hlisted] at hunpaused

/-- A worker was there before, or it was just started for the first candidate. -/
theorem Core.Step.worker_cases {c c' : Core} {m : Move} (h : c.Step m c') {w : Worker}
    (hw : w ∈ c'.workers) :
    (∃ v ∈ c.workers, w.serial = v.serial ∧ w.event = v.event ∧ w.handler = v.handler) ∨
      ∃ e rest entry, m = .loop ∧ c.candidates = e :: rest ∧
        c.registry.find? e.tag = some entry ∧
        w = .spawned c.started { e with status := .processing } entry.handler ∧
        c'.workers = c.workers ++ [w] := by
  have hold : w ∈ c.workers →
      ∃ v ∈ c.workers, w.serial = v.serial ∧ w.event = v.event ∧ w.handler = v.handler :=
    fun hmem => ⟨w, hmem, rfl, rfl, rfl⟩
  cases h with
  | keep | repaused | elected | elapsed | clockSet | recorded | acted | staleReset | leadLost
  | passedOver => exact Or.inl (hold hw)
  | opened =>
    have hsame : c.lead.workers = c.workers := by
      unfold lead
      split <;> rfl
    exact Or.inl (hold (hsame ▸ hw))
  | claimed hcandidates hentry =>
    rcases List.mem_append.1 hw with hmem | hlast
    · exact Or.inl (hold hmem)
    · rw [List.mem_singleton.1 hlast]
      exact Or.inr ⟨_, _, _, rfl, hcandidates, hentry, rfl, rfl⟩
  | worked hv =>
    obtain ⟨u, hu, rfl⟩ := List.mem_map.1 hw
    split
    · exact Or.inl ⟨_, hv, rfl, rfl, rfl⟩
    · exact Or.inl ⟨u, hu, rfl, rfl, rfl⟩
  | ended => exact Or.inl (hold (List.mem_filter.1 hw).1)

namespace Service

/-- Whether a move begins a cycle. -/
def begins (s : Service) : Move → Bool
  | .loop =>
    match s.loop.phase with
    | .starting => true
    | _ => false
  | _ => false

/-- What is allowed while the cycle under way goes on. -/
def goesOn (allowed : Service → Move → Bool) (s : Service) (m : Move) : Bool :=
  allowed s m && !s.begins m

/-- The cycle that begins here, and lists its candidates in the next step, sees an event as
one that may run. -/
structure Sees (begun listing : Service) (x : Event) : Prop where
  begins : begun.loop.phase = .starting
  lists : begun.after? .loop = some listing
  stored : x ∈ listing.dispatcher.store.events
  ready : x.status = .new ∨
    x.status = .pending ∧ ∃ due, x.dueAt? = some due ∧ due < begun.dispatcher.now
  unpaused : ∀ entry, begun.dispatcher.registry.find? x.tag = some entry →
    entry.eventClass ∉ begun.pauses.classes

/-- A cycle that began at some point of the run saw an event, went on to claim it, and
started the worker; then the run led here. -/
def Started (allowed : Service → Move → Bool) (s₀ begun : Service) (seen : Event) (w : Worker)
    (s : Service) : Prop :=
  ∃ listing claiming claimed : Service,
    Reaches allowed s₀ begun ∧ begun.Sees listing seen ∧
    Reaches (goesOn allowed) listing claiming ∧ claiming.after? .loop = some claimed ∧
    claimed.dispatcher.workers =
      claiming.dispatcher.workers ++ [.spawned w.serial w.event w.handler] ∧
    Reaches allowed claimed s

/-- Each candidate was seen by the cycle under way, and each worker was started by a cycle
that saw its event. -/
structure Traced (allowed : Service → Move → Bool) (s₀ s : Service) : Prop where
  reaches : Reaches allowed s₀ s
  candidates : ∀ x ∈ s.candidates, ∃ begun listing, Reaches allowed s₀ begun ∧
    begun.Sees listing x ∧ Reaches (goesOn allowed) listing s
  workers : ∀ w ∈ s.dispatcher.workers, ∃ begun seen entry, Started allowed s₀ begun seen w s ∧
    s₀.dispatcher.registry.find? seen.tag = some entry ∧ w.handler = entry.handler ∧
    w.event = { seen with status := .processing }

section Trace

variable {allowed : Service → Move → Bool} {s₀ s s' : Service} {m : Move} {x : Event}

theorem begins_iff : s.begins m = true ↔ m = .loop ∧ s.loop.phase = .starting := by
  unfold begins
  split
  · split
    · next hphase => simp [hphase]
    · next hphase => simpa using hphase
  · next hother => exact ⟨nofun, fun h => absurd h.1 hother⟩

/-- What a cycle lists as it begins it sees as events that may run. -/
theorem sees_of_mem_candidates (hphase : s.loop.phase = .starting)
    (h : s.after? .loop = some s') (hx : x ∈ s'.candidates) : s.Sees s' x := by
  have hnone : s.core.candidates = [] := candidates_of_starting hphase
  have hstep : s.core.Step .loop s'.core := step_of_loopStep h
  have hx' : x ∈ s'.core.candidates := hx
  generalize hcore : s'.core = c' at hstep hx'
  cases hstep with
  | keep | repaused | leadLost =>
    rw [show _ = [] from hnone] at hx'
    cases hx'
  | passedOver hcandidates | claimed hcandidates =>
    rw [hnone] at hcandidates
    cases hcandidates
  | opened _ _ hlisting =>
    rcases hlisting with rfl | rfl
    · cases hx'
    · obtain ⟨hmem, hready, hunpaused⟩ := Store.admitted_of_mem_dispatchable hx'
      refine ⟨hphase, h, ?_, hready, hunpaused⟩
      rw [show s'.dispatcher.store = s.core.lead.store from congrArg Core.store hcore]
      exact hmem

/-- As long as no cycle begins, candidates only become fewer. -/
theorem candidates_subset (hfresh : s.givesFresh m = true) (hm : s.begins m = false)
    (h : s.after? m = some s') : s'.candidates ⊆ s.candidates := by
  have hstep := step_of_after? hfresh h
  generalize hcore : s'.core = c' at hstep
  have hsame : s'.candidates = c'.candidates := congrArg Core.candidates hcore
  rw [hsame]
  cases hstep with
  | passedOver hcandidates | claimed hcandidates =>
    rw [show s.candidates = _ from hcandidates]
    exact List.subset_cons_self _ _
  | opened _ hnone =>
    have hphase : s.loop.phase ≠ .starting := by
      intro hstarting
      rw [begins_iff.2 ⟨rfl, hstarting⟩] at hm
      cases hm
    rw [← hsame, show s'.candidates = s.candidates from
      congrArg Core.candidates (core_of_loopStep h hphase hnone)]
    exact List.Subset.refl _
  | _ => exact List.Subset.refl _

theorem registry_of_reaches (hfresh : ∀ s m, allowed s m = true → s.givesFresh m = true)
    (h : Reaches allowed s₀ s) : s.dispatcher.registry = s₀.dispatcher.registry :=
  h.induct (P := fun s => s.dispatcher.registry = s₀.dispatcher.registry) rfl
    fun _ _ _ hsame hm hafter =>
      (step_of_after? (hfresh _ _ hm) hafter).registry_eq.trans hsame

theorem Started.sees {begun : Service} {w : Worker} (h : Started allowed s₀ begun x w s) :
    Reaches allowed s₀ begun ∧ ∃ listing, begun.Sees listing x := by
  obtain ⟨listing, claiming, claimed, hbegun, hsees, -⟩ := h
  exact ⟨hbegun, listing, hsees⟩

theorem Started.move {begun : Service} {w : Worker} (h : Started allowed s₀ begun x w s)
    (hm : allowed s m = true) (hafter : s.after? m = some s') :
    Started allowed s₀ begun x w s' := by
  obtain ⟨listing, claiming, claimed, hbegun, hsees, hgoes, hclaims, hworkers, hreach⟩ := h
  exact ⟨listing, claiming, claimed, hbegun, hsees, hgoes, hclaims, hworkers,
    .move m hreach hm hafter⟩

/-- Every move keeps the invariant. -/
theorem Traced.after? (hfresh : ∀ s m, allowed s m = true → s.givesFresh m = true)
    (h : Traced allowed s₀ s) (hm : allowed s m = true) (hafter : s.after? m = some s') :
    Traced allowed s₀ s' := by
  have hstep := step_of_after? (hfresh s m hm) hafter
  refine ⟨.move m h.reaches hm hafter, fun x hx => ?_, fun w hw => ?_⟩
  · by_cases hbegins : s.begins m = true
    · obtain ⟨rfl, hphase⟩ := begins_iff.1 hbegins
      exact ⟨s, s', h.reaches, sees_of_mem_candidates hphase hafter hx, .refl⟩
    · have hnot : s.begins m = false := Bool.eq_false_iff.2 hbegins
      obtain ⟨begun, listing, hbegun, hsees, hgoes⟩ :=
        h.candidates x (candidates_subset (hfresh s m hm) hnot hafter hx)
      refine ⟨begun, listing, hbegun, hsees, .move m hgoes ?_ hafter⟩
      simp [goesOn, hm, hnot]
  · rcases hstep.worker_cases hw with ⟨v, hv, hserial, hevent, hhandler⟩ |
      ⟨e, rest, entry, rfl, hcandidates, hentry, rfl, hworkers⟩
    · obtain ⟨begun, seen, entry, hstarted, hentry, hsame, hseen⟩ := h.workers v hv
      refine ⟨begun, seen, entry, ?_, hentry, hhandler.trans hsame, hevent.trans hseen⟩
      have hmoved := hstarted.move hm hafter
      unfold Started at hmoved ⊢
      rwa [hserial, hevent, hhandler]
    · obtain ⟨begun, listing, hbegun, hsees, hgoes⟩ :=
        h.candidates e (show e ∈ s.core.candidates from hcandidates ▸ List.mem_cons_self)
      refine ⟨begun, e, entry, ⟨listing, s, s', hbegun, hsees, hgoes, hafter, hworkers, .refl⟩,
        ?_, rfl, rfl⟩
      rw [← registry_of_reaches hfresh h.reaches]
      exact hentry

theorem traced_of_reaches (hfresh : ∀ s m, allowed s m = true → s.givesFresh m = true)
    (hcandidates : s₀.candidates = []) (hworkers : s₀.dispatcher.workers = [])
    (h : Reaches allowed s₀ s) : Traced allowed s₀ s := by
  refine h.induct (P := Traced allowed s₀) ⟨.refl, ?_, ?_⟩
    fun _ _ _ htraced hm hafter => htraced.after? hfresh hm hafter
  · simp [hcandidates]
  · simp [hworkers]

end Trace
end Service
end EventDispatch
