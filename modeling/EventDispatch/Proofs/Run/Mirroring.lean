import EventDispatch.Proofs.Run.Stopping
import EventDispatch.Proofs.Run.Unwritten

/-!
# The run without the signal

**Input.** A run of a service whose loop is to stop, and the same service had the signal
not been sent.

**Algorithm.** The second service makes the moves of the first one but for those of the
signal (`Service.withoutSignal`).

**Invariant.** The two differ in the signal and in what was told; once the loop of the
first one has ended, that of the second waits, and requests wait with it
(`Service.Mirrors`).  What workers and callers do depends on none of these.

**Results.** The moves that remain lead to the same store and the same workers
(`Mirrors.run`), and what can be done from there on without the signal can be done with
it, and the other way round (`Mirrors.follow?`).
-/

namespace EventDispatch

/-! ## What was told does not matter -/

namespace Dispatcher

variable {d d' : Dispatcher}

/-- The dispatchers are the same but for what was told. -/
def Alike (d d' : Dispatcher) : Prop := ∃ journal, d' = { d with journal }

theorem Alike.refl (d : Dispatcher) : d.Alike d := ⟨d.journal, rfl⟩

theorem Alike.handlingStep (h : d.Alike d') (e : Event) (todo : List Action) (ending : Ending)
    (pause : Pause) (limit : Nat) :
    Option.Rel (fun x x' => x.1.Alike x'.1 ∧ x'.2 = x.2)
      (d.handlingStep e todo ending pause limit) (d'.handlingStep e todo ending pause limit) := by
  obtain ⟨journal, rfl⟩ := h
  unfold Dispatcher.handlingStep
  change Option.Rel _ _ (if limit ≤ d.uptime then _ else _)
  split
  · exact .some ⟨⟨_, rfl⟩, rfl⟩
  · cases pause with
    | asleep wake =>
      dsimp only
      split
      · exact .some ⟨⟨_, rfl⟩, rfl⟩
      · exact .none
    | atGate gate ticket =>
      dsimp only
      change Option.Rel _ _ (if d.isLetThrough gate ticket = true then _ else _)
      split
      · exact .some ⟨⟨_, rfl⟩, rfl⟩
      · exact .none
    | none =>
      cases todo with
      | nil => exact .some ⟨⟨_, rfl⟩, rfl⟩
      | cons action rest => cases action <;> exact .some ⟨⟨_, rfl⟩, rfl⟩

theorem Alike.workerStep (h : d.Alike d') (w : Worker) :
    Option.Rel (fun x x' => x.1.Alike x'.1 ∧ x'.2 = x.2) (d.workerStep w) (d'.workerStep w) := by
  unfold Dispatcher.workerStep
  cases w.stage with
  | handling todo ending pause limit =>
    refine rel_map (h.handlingStep w.event todo ending pause limit) ?_
    exact fun _ _ hstep => ⟨hstep.1, congrArg some hstep.2⟩
  | queued =>
    obtain ⟨journal, rfl⟩ := h
    dsimp only
    change Option.Rel _ _ (if d.hasFreePermit = true then _ else _)
    split
    · exact .some ⟨⟨_, rfl⟩, rfl⟩
    · exact .none
  | opening todo =>
    obtain ⟨journal, rfl⟩ := h
    cases todo with
    | nil =>
      refine .some ?_
      unfold beginCall
      dsimp only
      split <;> exact ⟨⟨_, rfl⟩, rfl⟩
    | cons action rest => exact .some ⟨⟨_, rfl⟩, rfl⟩
  | closing todo =>
    obtain ⟨journal, rfl⟩ := h
    cases todo <;> exact .some ⟨⟨_, rfl⟩, rfl⟩

theorem Alike.workOn? (h : d.Alike d') (serial : Nat) :
    Option.Rel Alike (d.workOn? serial) (d'.workOn? serial) := by
  have hworkers : d'.workers = d.workers := by
    obtain ⟨journal, rfl⟩ := h
    rfl
  unfold Dispatcher.workOn?
  rw [hworkers]
  cases d.workers.find? fun w => w.serial = serial with
  | none => exact .none
  | some w =>
    have hstep := h.workerStep w
    dsimp only
    generalize d.workerStep w = x at hstep
    generalize d'.workerStep w = x' at hstep
    cases hstep with
    | none => exact .none
    | @some x x' hstep =>
      obtain ⟨d₁, _⟩ := x
      obtain ⟨d₁', stage?⟩ := x'
      obtain ⟨⟨journal, (rfl : d₁' = _)⟩, (rfl : stage? = _)⟩ := hstep
      cases stage? <;> exact .some ⟨_, rfl⟩

theorem Alike.startOne (h : d.Alike d') (e : Event) :
    (d'.startOne e).1 = (d.startOne e).1 ∧ (d.startOne e).2.Alike (d'.startOne e).2 := by
  obtain ⟨journal, rfl⟩ := h
  unfold Dispatcher.startOne
  dsimp only
  split
  · exact ⟨rfl, _, rfl⟩
  · split <;> exact ⟨rfl, _, rfl⟩

theorem Alike.checkLead (h : d.Alike d') :
    d'.checkLead.1 = d.checkLead.1 ∧ d.checkLead.2.Alike d'.checkLead.2 := by
  obtain ⟨journal, rfl⟩ := h
  unfold Dispatcher.checkLead
  dsimp only
  cases d.election.answer with
  | error cause => exact ⟨rfl, _, rfl⟩
  | ok leads =>
    cases leads with
    | false =>
      dsimp only
      by_cases hleading : d.leading = true
      · rw [if_pos hleading, if_pos hleading]
        exact ⟨rfl, _, rfl⟩
      · rw [if_neg hleading, if_neg hleading]
        exact ⟨rfl, _, rfl⟩
    | true =>
      dsimp only
      by_cases hleading : d.leading = true
      · rw [if_pos hleading, if_pos hleading]
        exact ⟨rfl, _, rfl⟩
      · rw [if_neg hleading, if_neg hleading]
        split <;> exact ⟨rfl, _, rfl⟩

theorem Alike.openCycle (h : d.Alike d') (paused : List EventClass) (now : Instant) :
    (d'.openCycle paused now).1 = (d.openCycle paused now).1 ∧
      (d.openCycle paused now).2.Alike (d'.openCycle paused now).2 := by
  unfold Dispatcher.openCycle
  obtain ⟨hanswer, halike⟩ := h.checkLead
  generalize d.checkLead = x at hanswer halike
  generalize d'.checkLead = x' at hanswer halike
  obtain ⟨answer, d₁⟩ := x
  obtain ⟨answer', d₁'⟩ := x'
  simp only at hanswer halike
  subst hanswer
  obtain ⟨journal, rfl⟩ := halike
  cases answer' with
  | error cause => exact ⟨rfl, _, rfl⟩
  | ok leads =>
    cases leads with
    | false => exact ⟨rfl, _, rfl⟩
    | true =>
      dsimp only
      split <;> exact ⟨rfl, _, rfl⟩

end Dispatcher

/-! ## What the signal does not matter to -/

namespace Service

variable {s s' t t' : Service} {m : Move} {moves : List Move}

/-- What workers and callers depend on is the same. -/
structure Accords (s s' : Service) : Prop where
  dispatcher : s.dispatcher.Alike s'.dispatcher
  pauses : s'.pauses = s.pauses

/-- Two services went on without a step of their loops, and they still accord. -/
structure GoOn (s s' t t' : Service) : Prop where
  accords : t.Accords t'
  loop : t.loop = s.loop
  loop' : t'.loop = s'.loop
  wakeups : s'.wakeups = s.wakeups → t'.wakeups = t.wakeups

theorem GoOn.trigger (h : GoOn s s' t t') (hint : String) :
    GoOn s s' (t.trigger hint).2 (t'.trigger hint).2 := by
  obtain ⟨⟨halike, hpauses⟩, hloop, hloop', hwakeups⟩ := h
  obtain ⟨d, pauses, wakeups, shutdown, loop, reloaders⟩ := t
  obtain ⟨d', pauses', wakeups', shutdown', loop', reloaders'⟩ := t'
  obtain ⟨journal, (rfl : d' = _)⟩ := halike
  refine ⟨⟨?_, ?_⟩, ?_, ?_, fun hsame => ?_⟩
  · unfold Service.trigger
    dsimp only
    split <;> split <;> exact ⟨_, rfl⟩
  · unfold Service.trigger
    dsimp only
    split <;> split <;> exact hpauses
  · unfold Service.trigger
    dsimp only
    split <;> exact hloop
  · unfold Service.trigger
    dsimp only
    split <;> exact hloop'
  · obtain (rfl : wakeups' = wakeups) := hwakeups hsame
    unfold Service.trigger
    dsimp only
    split <;> rfl

/-- What workers and callers do, the signal and the loop have no part in. -/
theorem Accords.after? (h : s.Accords s') (hloop : m.isLoop = false) (hstart : m ≠ .start) :
    Option.Rel (GoOn s s') (s.after? m) (s'.after? m) := by
  obtain ⟨d, pauses, wakeups, shutdown, loop, reloaders⟩ := s
  obtain ⟨d', pauses', wakeups', shutdown', loop', reloaders'⟩ := s'
  obtain ⟨halike, (rfl : pauses' = pauses)⟩ := h
  cases m with
  | loop => cases hloop
  | start => exact absurd rfl hstart
  | work serial =>
    exact rel_map (halike.workOn? serial) fun _ _ hd => ⟨⟨hd, rfl⟩, rfl, rfl, id⟩
  | register tag owner deadline payload =>
    obtain ⟨journal, (rfl : d' = _)⟩ := halike
    refine .some ?_
    unfold registerEvent
    split
    · exact ⟨⟨⟨_, rfl⟩, rfl⟩, rfl, rfl, id⟩
    · dsimp only [Dispatcher.nextId]
      split
      · exact ⟨⟨⟨_, rfl⟩, rfl⟩, rfl, rfl, id⟩
      · refine GoOn.trigger ?_ tag
        exact ⟨⟨⟨_, rfl⟩, rfl⟩, rfl, rfl, id⟩
  | resetStale =>
    obtain ⟨journal, (rfl : d' = _)⟩ := halike
    refine .some ?_
    unfold Service.resetStale
    dsimp only
    split
    · exact ⟨⟨⟨_, rfl⟩, rfl⟩, rfl, rfl, id⟩
    · refine GoOn.trigger ?_ "reset"
      exact ⟨⟨⟨_, rfl⟩, rfl⟩, rfl, rfl, id⟩
  | trigger hint => exact .some (GoOn.trigger ⟨⟨halike, rfl⟩, rfl, rfl, id⟩ hint)
  | pause c =>
    obtain ⟨journal, (rfl : d' = _)⟩ := halike
    refine .some ?_
    unfold pauseClass
    dsimp only
    split <;> exact ⟨⟨⟨_, rfl⟩, rfl⟩, rfl, rfl, id⟩
  | resume c =>
    obtain ⟨journal, (rfl : d' = _)⟩ := halike
    refine .some ?_
    unfold resumeClass
    dsimp only
    split <;> exact ⟨⟨⟨_, rfl⟩, rfl⟩, rfl, rfl, id⟩
  | setPaused | act | elect | hinder | elapse | setClock | release | vanish | shutdown | abandon =>
    obtain ⟨journal, (rfl : d' = _)⟩ := halike
    exact .some ⟨⟨⟨_, rfl⟩, rfl⟩, rfl, rfl, id⟩

/-- The loops are at one point, too, and the same requests wait. -/
structure Alongside (s s' : Service) : Prop extends s.Accords s' where
  loop : s'.loop = s.loop
  wakeups : s'.wakeups = s.wakeups

theorem Alongside.start (h : s.Alongside s') : s.start.Alongside s'.start := by
  obtain ⟨d, pauses, wakeups, shutdown, loop, reloaders⟩ := s
  obtain ⟨d', pauses', wakeups', shutdown', loop', reloaders'⟩ := s'
  obtain ⟨⟨⟨journal, (rfl : d' = _)⟩, (rfl : pauses' = pauses)⟩, (rfl : loop' = loop),
    (rfl : wakeups' = wakeups)⟩ := h
  unfold Service.start
  dsimp only
  split
  · split <;> exact ⟨⟨⟨_, rfl⟩, rfl⟩, rfl, rfl⟩
  · exact ⟨⟨⟨_, rfl⟩, rfl⟩, rfl, rfl⟩

/-- A loop that goes through a cycle does not look at the signal. -/
theorem Alongside.loopStep (h : s.Alongside s') (hphase : s.loop.phase ≠ .waiting) :
    Option.Rel Alongside s.loopStep s'.loopStep := by
  obtain ⟨d, pauses, wakeups, shutdown, loop, reloaders⟩ := s
  obtain ⟨d', pauses', wakeups', shutdown', loop', reloaders'⟩ := s'
  obtain ⟨⟨halike, (rfl : pauses' = pauses)⟩, (rfl : loop' = loop),
    (rfl : wakeups' = wakeups)⟩ := h
  unfold Service.loopStep
  dsimp only at halike ⊢
  split
  · exact .none
  · exact .none
  · next hwaiting => exact absurd hwaiting hphase
  · obtain ⟨journal, (rfl : d' = _)⟩ := halike
    split <;> exact .some ⟨⟨⟨_, rfl⟩, rfl⟩, rfl, rfl⟩
  · refine .some ?_
    obtain ⟨hanswer, hd⟩ := halike.openCycle pauses'.classes d.now
    have hnow : d'.now = d.now := by
      obtain ⟨journal, rfl⟩ := halike
      rfl
    unfold beginCycle
    dsimp only
    rw [hnow]
    generalize d.openCycle pauses'.classes d.now = x at hanswer hd
    generalize d'.openCycle pauses'.classes d.now = x' at hanswer hd
    obtain ⟨answer, d₁⟩ := x
    obtain ⟨answer', d₁'⟩ := x'
    simp only at hanswer hd
    subst hanswer
    obtain ⟨journal, rfl⟩ := hd
    cases answer' <;> exact ⟨⟨⟨_, rfl⟩, rfl⟩, rfl, rfl⟩
  · obtain ⟨journal, (rfl : d' = _)⟩ := halike
    refine .some ?_
    unfold finishCycle
    dsimp only
    split <;> exact ⟨⟨⟨_, rfl⟩, rfl⟩, rfl, rfl⟩
  · next e rest count _ =>
    refine .some ?_
    obtain ⟨hstarted, hd⟩ := halike.startOne e
    rw [hstarted]
    exact ⟨⟨hd, rfl⟩, rfl, rfl⟩

/-! ## The moves that remain -/

/-- The signal has a part in the move: it is sent, its sender goes, or a loop that waits
looks at it. -/
def isOfSignal (s : Service) : Move → Bool
  | .shutdown _ => true
  | .abandon => true
  | .loop =>
    match s.loop.phase with
    | .waiting => true
    | _ => false
  | _ => false

/-- The moves of a run in which the signal has no part. -/
def withoutSignal (s : Service) : List Move → List Move
  | [] => []
  | m :: rest =>
    (if s.isOfSignal m then [] else [m]) ++ ((s.after? m).map (withoutSignal · rest)).getD []

/-- The signal has no part in the move. -/
def isCalm (s : Service) (m : Move) : Bool := s.givesFresh m && !s.isOfSignal m

/-- The service had the signal not been sent. -/
def unsignalled (s : Service) : Service := { s with shutdown := .initial }

/-- The second service goes along with the first one, and waits once the loop of that one has
ended. -/
inductive Mirrors (s s' : Service) : Prop
  | alongside : s.Alongside s' → Mirrors s s'
  | waits : s.Accords s' → s.loop.phase = .ended → s'.loop.phase = .waiting → Mirrors s s'

theorem alongside_unsignalled (s : Service) : s.Alongside s.unsignalled :=
  ⟨⟨.refl _, rfl⟩, rfl, rfl⟩

theorem Accords.givesFresh_eq (h : s.Accords s') (m : Move) :
    s'.givesFresh m = s.givesFresh m := by
  obtain ⟨journal, hd⟩ := h.dispatcher
  cases m with
  | register =>
    simp only [givesFresh, hd]
    rfl
  | _ => rfl

theorem Accords.isCalm_eq (h : s.Accords s') (hloop : m.isLoop = false) :
    s'.isCalm m = s.isCalm m := by
  unfold isCalm
  rw [h.givesFresh_eq]
  cases m with
  | loop => cases hloop
  | _ => rfl

theorem Alongside.isCalm_eq (h : s.Alongside s') (m : Move) : s'.isCalm m = s.isCalm m := by
  cases m with
  | loop =>
    unfold isCalm isOfSignal
    rw [h.givesFresh_eq, h.loop]
  | _ => exact h.toAccords.isCalm_eq rfl

theorem Alongside.after? (h : s.Alongside s') (hm : s.isCalm m = true) :
    Option.Rel Alongside (s.after? m) (s'.after? m) := by
  cases m with
  | loop =>
    refine h.loopStep fun hwaiting => ?_
    simp [isCalm, isOfSignal, hwaiting] at hm
  | start => exact .some h.start
  | _ =>
    refine rel_mono (h.toAccords.after? rfl nofun) fun t t' hgo => ?_
    exact ⟨hgo.accords, hgo.loop'.trans (h.loop.trans hgo.loop.symm), hgo.wakeups h.wakeups⟩

namespace Mirrors

theorem accords (h : s.Mirrors s') : s.Accords s' := by
  cases h with
  | alongside h => exact h.toAccords
  | waits h => exact h

/-- A move in which the signal has no part is possible for both services, or for neither. -/
theorem calm (h : s.Mirrors s') (m : Move) :
    Option.Rel Mirrors (if s.isCalm m then s.after? m else none)
      (if s'.isCalm m then s'.after? m else none) := by
  cases h with
  | alongside h =>
    rw [h.isCalm_eq m]
    split
    · next hm => exact rel_mono (h.after? hm) fun _ _ => .alongside
    · exact .none
  | waits h hended hwaits =>
    cases hloop : m.isLoop with
    | true =>
      -- The loop that ended has no step, and one that waits looks at the signal.
      obtain rfl : m = .loop := by
        cases m with
        | loop => rfl
        | _ => cases hloop
      have hnone : s.after? .loop = none := by simp [Service.after?, loopStep, hended]
      have hsignal : s'.isCalm .loop = false := by simp [isCalm, isOfSignal, hwaits]
      rw [hnone, ite_self, hsignal]
      exact .none
    | false =>
      rw [h.isCalm_eq hloop]
      split
      · by_cases hstart : m = .start
        · subst hstart
          have hsame : s.start = s := by simp [Service.start, hended]
          have hsame' : s'.start = s' := by simp [Service.start, hwaits]
          refine .some ?_
          rw [hsame, hsame']
          exact .waits h hended hwaits
        · refine rel_mono (h.after? hloop hstart) fun t t' hgo => ?_
          exact .waits hgo.accords (by rw [hgo.loop, hended]) (by rw [hgo.loop', hwaits])
      · exact .none

/-- So are any such moves, one after the other. -/
theorem follow? (h : s.Mirrors s') (moves : List Move) :
    Option.Rel Mirrors (s.follow? isCalm moves) (s'.follow? isCalm moves) := by
  induction moves generalizing s s' with
  | nil => exact .some h
  | cons m rest ih =>
    have hunfold : ∀ s : Service, s.follow? isCalm (m :: rest) =
        (if s.isCalm m then s.after? m else none).bind (Service.follow? isCalm · rest) := by
      intro s
      rw [Service.follow?]
      split <;> rfl
    rw [hunfold, hunfold]
    exact rel_bind (h.calm m) fun _ _ hnext => ih hnext

/-- The second service leaves out a move of the signal. -/
theorem leaveOut (h : s.Mirrors s') (hstopping : s.Stopping) (hm : s.isOfSignal m = true)
    (hafter : s.after? m = some t) : t.Mirrors s' := by
  cases m with
  | shutdown | abandon =>
    cases hafter
    cases h with
    | alongside h => exact .alongside ⟨⟨h.dispatcher, h.pauses⟩, h.loop, h.wakeups⟩
    | waits h hended hwaits => exact .waits ⟨h.dispatcher, h.pauses⟩ hended hwaits
  | loop =>
    have hwaiting : s.loop.phase = .waiting := by
      simp only [isOfSignal] at hm
      split at hm
      · assumption
      · cases hm
    cases h with
    | alongside h =>
      obtain ⟨news, shutdown, hpoll⟩ := hstopping.exists_poll? hwaiting
      change s.loopStep = some t at hafter
      simp only [loopStep, hwaiting, wake?, hpoll] at hafter
      obtain ⟨journal, hd⟩ := h.dispatcher
      cases news with
      | stop =>
        cases hafter
        refine .waits ⟨⟨journal, hd⟩, h.pauses⟩ rfl ?_
        rw [h.loop]
        exact hwaiting
      | goOn =>
        cases hafter
        exact .alongside ⟨⟨h.dispatcher, h.pauses⟩, h.loop, h.wakeups⟩
    | waits _ hended =>
      rw [hwaiting] at hended
      cases hended
  | _ => cases hm

/-- Had the signal not been sent, the moves that remain lead to the same dispatcher but for what
was told. -/
theorem run (h : s.Mirrors s') (hstopping : s.Stopping)
    (hrun : s.follow? staysToStop moves = some t) :
    ∃ t', s'.follow? isCalm (s.withoutSignal moves) = some t' ∧ t.Mirrors t' := by
  induction moves generalizing s s' with
  | nil =>
    cases hrun
    exact ⟨s', rfl, h⟩
  | cons m rest ih =>
    simp only [Service.follow?] at hrun
    split at hrun
    · next hm =>
      obtain ⟨u, hafter, hrest⟩ := Option.bind_eq_some_iff.1 hrun
      have hnext := hstopping.after? hm hafter
      rw [withoutSignal, hafter, Option.map_some, Option.getD_some]
      by_cases hsignal : s.isOfSignal m = true
      · rw [if_pos hsignal, List.nil_append]
        exact ih (h.leaveOut hstopping hsignal hafter) hnext hrest
      · rw [if_neg hsignal, List.singleton_append, Service.follow?]
        have hcalm : s.isCalm m = true :=
          Bool.and_eq_true_iff.2 ⟨(Bool.and_eq_true_iff.1 hm).1, by simp [hsignal]⟩
        have hrel := h.calm m
        rw [if_pos hcalm, hafter] at hrel
        split at hrel
        · next hcalm' =>
          generalize s'.after? m = x at hrel
          cases hrel with
          | some hmirrors =>
            rw [if_pos hcalm', Option.bind_some]
            exact ih hmirrors hnext hrest
        · cases hrel
    · cases hrun

end Mirrors
end Service
end EventDispatch
