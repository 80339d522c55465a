import EventDispatch.Proofs.Run.Stages

/-!
# The retries of one run

**Input.** A worker, its stored event, how often the handler was called for the event,
and the most retries that the policy allows.

**Rule.** Nothing but the status and the count of retries matters here, the standing of
the event.  A retry is spent as the event leaves `processing` for `pending`: at the wish
of the handler, after a row of level `error`, or because the handler is out of time.

**Invariant.** How far the worker is says what the standing is (`Worker.Keeps`).  Until
the handler is called the event stands as it was claimed.  While the handler runs at
most one retry was spent on top.  Afterwards the last actions of the worker, taken
together, lead to a standing in which the event may rest (`Standing.Rests`).

**Results.** Every step of a worker keeps this, if the store is within reach for its
last actions (`Progress.keeps`).
-/

namespace EventDispatch

/-! ## Deadlines that never vanish -/

/-- A deadline that no number of retries with this grace brings to exactly zero. -/
def lasts (grace deadline : Duration) : Bool :=
  0 ≤ grace.nanos || deadline.nanos % grace.nanos ≠ 0

/-- The deadline of the event is not zero, and will not be after any number of retries. -/
def Event.Lasts (grace : Duration) (e : Event) : Prop :=
  0 ≤ grace.nanos ∧ 0 < e.deadline.nanos ∨
    grace.nanos < 0 ∧ (e.deadline.nanos < 0 ∨ e.deadline.nanos % grace.nanos ≠ 0)

section Lasting

variable {grace : Duration} {e : Event}

theorem nanos_saturatingAdd_of_neg (deadline : Duration) (h : grace.nanos < 0) :
    (deadline.saturatingAdd grace).nanos = deadline.nanos + grace.nanos ∨
      (deadline.saturatingAdd grace).nanos = Duration.least := by
  have hupper := deadline.upper
  unfold Duration.saturatingAdd Duration.clamp
  split
  · split
    · exact Or.inl rfl
    · next hgreat => exact absurd (by omega) hgreat
  · exact Or.inr rfl

theorem Event.lasts_of_positive (hpositive : 0 < e.deadline.nanos)
    (h : EventDispatch.lasts grace e.deadline = true) : e.Lasts grace := by
  by_cases hgrace : 0 ≤ grace.nanos
  · exact Or.inl ⟨hgrace, hpositive⟩
  · have hrest : e.deadline.nanos % grace.nanos ≠ 0 := by
      simpa [EventDispatch.lasts, hgrace] using h
    exact Or.inr ⟨Int.not_le.1 hgrace, Or.inr hrest⟩

theorem Event.Lasts.deadline_ne_zero (h : e.Lasts grace) : e.deadline.nanos ≠ 0 := by
  rcases h with ⟨-, hpositive⟩ | ⟨-, hnegative | hrest⟩
  · omega
  · omega
  · intro hzero
    rw [hzero] at hrest
    exact hrest (Int.zero_emod _)

theorem Event.Lasts.congr (h : e.Lasts grace) {e' : Event} (hsame : e'.deadline = e.deadline) :
    e'.Lasts grace := by
  unfold Lasts
  rw [hsame]
  exact h

theorem Event.Lasts.sentBack (h : e.Lasts grace) (clock : Instant) :
    (e.sentBack clock grace).Lasts grace := by
  change 0 ≤ grace.nanos ∧ 0 < (e.deadline.saturatingAdd grace).nanos ∨ grace.nanos < 0 ∧
    ((e.deadline.saturatingAdd grace).nanos < 0 ∨
      (e.deadline.saturatingAdd grace).nanos % grace.nanos ≠ 0)
  rcases h with ⟨hgrace, hpositive⟩ | ⟨hgrace, hrest⟩
  · refine Or.inl ⟨hgrace, ?_⟩
    rcases nanos_saturatingAdd (by omega : 0 ≤ e.deadline.nanos + grace.nanos) with hsum | hmax
    · omega
    · rw [hmax]
      decide
  · refine Or.inr ⟨hgrace, ?_⟩
    rcases nanos_saturatingAdd_of_neg e.deadline hgrace with hsum | hmin
    · rw [hsum, Int.add_emod_right]
      exact hrest.imp_left (by omega)
    · rw [hmin]
      exact Or.inl (by decide)

theorem Action.Turns.lasts {p : Policy} {clock : Instant} {action : Action} {e e' : Event}
    (h : action.Turns p clock e e') (hlasts : e.Lasts p.grace) : e'.Lasts p.grace := by
  cases h with
  | keeps => exact hlasts
  | sendsBack => exact hlasts.sentBack clock
  | fails | completes => exact hlasts.congr rfl

end Lasting

/-! ## Standings -/

/-- The status of an event and its count of retries. -/
structure Standing where
  status : Status
  retries : Int

def Event.standing (e : Event) : Standing := ⟨e.status, e.retries⟩

/-- What an action makes of the standing of its event, if the store is within reach. -/
def Action.stand (x : Standing) : Action → Standing
  | .returnAfterError => if x.status = .processing then ⟨.pending, x.retries + 1⟩ else x
  | .giveBack => if x.status = .processing then ⟨.pending, x.retries + 1⟩ else x
  | .markFailed => if x.status.canBecome .failed = true then ⟨.failed, x.retries⟩ else x
  | .markCompleted =>
    if x.status.canBecome .completed = true then ⟨.completed, x.retries⟩ else x
  | .narrate _ => x
  | .append _ _ => x
  | .sleep _ => x
  | .pass _ => x

/-- The standing once these actions are performed. -/
def standAfter (x : Standing) (todo : List Action) : Standing := todo.foldl Action.stand x

theorem Action.retries_le_stand (x : Standing) (action : Action) :
    x.retries ≤ (action.stand x).retries := by
  cases action with
  | returnAfterError | giveBack =>
    simp only [stand]
    split
    · change x.retries ≤ x.retries + 1
      omega
    · exact Int.le_refl _
  | markFailed | markCompleted =>
    simp only [stand]
    split <;> exact Int.le_refl _
  | narrate | append | sleep | pass => exact Int.le_refl _

theorem retries_le_standAfter (x : Standing) (todo : List Action) :
    x.retries ≤ (standAfter x todo).retries := by
  induction todo generalizing x with
  | nil => exact Int.le_refl _
  | cons action rest ih => exact Int.le_trans (action.retries_le_stand x) (ih (action.stand x))

/-- The standing of an event without a worker: if it waits, it has a retry left for each
call that it may still come to, and steady events spend no retry without a call. -/
def Standing.Rests (most : Int) (steady : Bool) (calls : Nat) (x : Standing) : Prop :=
  match x.status with
  | .processing => False
  | .new => x.retries ≤ most ∧ calls ≤ x.retries ∧ (steady = true → calls = x.retries)
  | .pending => x.retries ≤ most ∧ calls ≤ x.retries ∧ (steady = true → calls = x.retries)
  | .completed => x.retries ≤ most + 1 ∧ calls ≤ most + 1
  | .failed => x.retries ≤ most + 1 ∧ calls ≤ most + 1

namespace Standing

theorem Rests.ne_processing {most : Int} {steady : Bool} {calls : Nat} {x : Standing}
    (h : x.Rests most steady calls) : x.status ≠ .processing := by
  intro hrun
  simp [Rests, hrun] at h

theorem Rests.of_ready {most : Int} {steady : Bool} {calls : Nat} {x : Standing}
    (h : x.Rests most steady calls) (hready : x.status = .new ∨ x.status = .pending) :
    x.retries ≤ most ∧ calls ≤ x.retries ∧ (steady = true → calls = x.retries) := by
  unfold Rests at h
  rcases hready with hstatus | hstatus
  · rwa [hstatus] at h
  · rwa [hstatus] at h

theorem Rests.le {most : Int} {steady : Bool} {calls : Nat} {x : Standing}
    (h : x.Rests most steady calls) : x.retries ≤ most + 1 ∧ calls ≤ most + 1 := by
  unfold Rests at h
  cases hstatus : x.status with
  | processing => simp [hstatus] at h
  | new | pending =>
    simp only [hstatus] at h
    omega
  | completed | failed => simpa only [hstatus] using h

/-- The stored event before a handler is called for it. -/
structure Ready (target : Event) (most : Int) (steady : Bool) (calls : Nat) (e : Event) :
    Prop where
  standing : e.standing = ⟨.processing, target.retries⟩
  deadline : e.deadline = target.deadline
  bounded : target.retries ≤ most
  counted : calls ≤ target.retries
  exact : steady = true → calls = target.retries

/-- The calls once the handler was called. -/
structure Called (target : Event) (most : Int) (steady : Bool) (calls : Nat) : Prop where
  bounded : target.retries ≤ most
  counted : calls ≤ target.retries + 1
  exact : steady = true → calls = target.retries + 1

/-- What a handler may have made of its event. -/
inductive Leaves (target : Event) : Standing → Prop
  | running : Leaves target ⟨.processing, target.retries⟩
  | waiting : Leaves target ⟨.pending, target.retries + 1⟩
  | failed {retries : Int} : retries ≤ target.retries + 1 → Leaves target ⟨.failed, retries⟩

end Standing

namespace Worker

/-- What the stored event of a worker and the calls for it look like, by how far the
worker is. -/
def Keeps (w : Worker) (most : Int) (steady : Bool) (calls : Nat) (e : Event) : Prop :=
  match w.stage with
  | .queued => Standing.Ready w.event most steady calls e
  | .opening todo => Standing.Ready w.event most steady calls e ∧ todo ⊆ openingActions w.event
  | .handling todo _ _ _ =>
    Standing.Called w.event most steady calls ∧ w.handler.Plays w.event todo ∧
      Standing.Leaves w.event e.standing
  | .closing todo => (standAfter e.standing todo).Rests most steady calls

/-- How often the next step of a worker calls its handler. -/
def nextCalls (w : Worker) : Nat :=
  match w.stage with
  | .opening [] => if w.event.deadline.nanos = 0 then 0 else 1
  | _ => 0

end Worker

namespace Standing

/-! ## The end of a run -/

section End

variable {target : Event} {most : Int} {steady : Bool} {calls : Nat} {x : Standing}

/-- An event that has ended may have spent one retry above the bound. -/
theorem Called.rests_of_isTerminal (h : Called target most steady calls)
    (hended : x.status.isTerminal = true) (hretries : x.retries ≤ target.retries + 1) :
    x.Rests most steady calls := by
  have hbounded := h.bounded
  have hcounted := h.counted
  unfold Standing.Rests
  cases hstatus : x.status with
  | completed | failed => exact ⟨by omega, by omega⟩
  | new | processing | pending => simp [hstatus, Status.isTerminal] at hended

theorem Leaves.markFailed (hx : Leaves target x) :
    (Action.markFailed.stand x).status = .failed ∧
      (Action.markFailed.stand x).retries ≤ target.retries + 1 := by
  cases hx with
  | running => exact ⟨rfl, Int.le_of_lt (Int.lt_succ _)⟩
  | waiting => exact ⟨rfl, Int.le_refl _⟩
  | failed hretries => exact ⟨rfl, hretries⟩

theorem Leaves.rests_markFailed (hx : Leaves target x) (h : Called target most steady calls) :
    (Action.markFailed.stand x).Rests most steady calls := by
  obtain ⟨hfailed, hretries⟩ := hx.markFailed
  exact h.rests_of_isTerminal (by rw [hfailed]; rfl) hretries

theorem Leaves.rests_markCompleted (hx : Leaves target x) (h : Called target most steady calls) :
    (Action.markCompleted.stand x).Rests most steady calls := by
  cases hx with
  | running => exact h.rests_of_isTerminal rfl (Int.le_of_lt (Int.lt_succ _))
  | waiting => exact h.rests_of_isTerminal rfl (Int.le_refl _)
  | failed hretries => exact h.rests_of_isTerminal rfl hretries

/-- An event that is to be run again waits, if it has a retry left. -/
theorem Leaves.rests_giveBack (hx : Leaves target x) (h : Called target most steady calls)
    (hleft : target.retries < most) : (Action.giveBack.stand x).Rests most steady calls := by
  cases hx with
  | running | waiting => exact ⟨hleft, h.counted, h.exact⟩
  | failed hretries => exact h.rests_of_isTerminal rfl hretries

variable {p : Policy}

theorem Leaves.rests_retryActions (hx : Leaves target x)
    (h : Called target p.maxRetries steady calls) (reason : Option String) :
    (standAfter x (retryActions p target reason)).Rests p.maxRetries steady calls := by
  unfold retryActions
  split
  · exact hx.rests_markFailed h
  · next hleft =>
    have hback := hx.rests_giveBack h (Int.not_le.1 hleft)
    cases reason with
    | none => exact hback
    | some reason => exact hback

/-- However a handler ends, its event may rest once the worker is done. -/
theorem Leaves.rests_closingActions (hx : Leaves target x)
    (h : Called target p.maxRetries steady calls) (ending : Ending) :
    (standAfter x (closingActions p target ending)).Rests p.maxRetries steady calls := by
  cases ending with
  | returned result =>
    cases result with
    | ok outcome =>
      cases outcome with
      | done => exact hx.rests_markCompleted h
      | retry => exact hx.rests_retryActions h none
      | fatal reason => exact hx.rests_markFailed h
    | error cause => exact hx.rests_markFailed h
  | panicked message => exact hx.rests_markFailed h

/-- Once the last retry is spent, a run that is to be repeated or is out of time fails. -/
theorem Leaves.failed_retryActions (hx : Leaves target x) (hspent : p.maxRetries ≤ target.retries)
    (reason : Option String) :
    (standAfter x (retryActions p target reason)).status = .failed := by
  unfold retryActions
  rw [if_pos hspent]
  exact hx.markFailed.1

end End

/-! ## Every step of a worker -/

section Step

variable {target : Event} {most : Int} {steady : Bool} {calls : Nat} {e e' : Event}

theorem Ready.leaves (h : Ready target most steady calls e) : Leaves target e.standing := by
  rw [h.standing]
  exact .running

/-- A handler is called once more, or not at all if the event is not steady. -/
theorem Ready.called (h : Ready target most steady calls e) (hsteady : steady = false) :
    Called target most steady calls := by
  have hcounted := h.counted
  exact ⟨h.bounded, by omega, fun hexact => by simp [hsteady] at hexact⟩

theorem Ready.called_succ (h : Ready target most steady calls e) :
    Called target most steady (calls + 1) := by
  have hcounted := h.counted
  refine ⟨h.bounded, by push_cast; omega, fun hsteady => ?_⟩
  rw [← h.exact hsteady]
  rfl

theorem Leaves.retries_le {x : Standing} (hx : Leaves target x) :
    x.retries ≤ target.retries + 1 := by
  cases hx with
  | running => exact Int.le_of_lt (Int.lt_succ _)
  | waiting => exact Int.le_refl _
  | failed hretries => exact hretries

theorem Leaves.eq_of_processing {x : Standing} (hx : Leaves target x)
    (hrun : x.status = .processing) : x.retries = target.retries := by
  cases hx with
  | running => rfl
  | waiting | failed => cases hrun

/-- An action of a handler leaves what a handler may leave. -/
theorem Leaves.act {p : Policy} {clock : Instant} {action : Action} {todo : List Action}
    (hx : Leaves target e.standing) {h : Handler} (hplays : h.Plays target todo)
    (hmem : action ∈ todo) (hturns : action.Turns p clock e e') : Leaves target e'.standing := by
  cases hturns with
  | keeps => exact hx
  | sendsBack _ hrun =>
    have hsame : e.retries = target.retries := hx.eq_of_processing hrun
    unfold Event.standing Event.sentBack
    rw [hsame]
    exact .waiting
  | fails => exact .failed hx.retries_le
  | completes haction =>
    subst haction
    exact absurd hmem hplays.markCompleted_not_mem

end Step
end Standing

/-- Whatever a worker does, at most one retry and one call exceed the bound. -/
theorem Worker.Keeps.le {w : Worker} {most : Int} {steady : Bool} {calls : Nat} {e : Event}
    (h : w.Keeps most steady calls e) : e.retries ≤ most + 1 ∧ calls ≤ most + 1 := by
  have hready : Standing.Ready w.event most steady calls e →
      e.retries ≤ most + 1 ∧ calls ≤ most + 1 := by
    intro hready
    have hretries : e.retries = w.event.retries := congrArg Standing.retries hready.standing
    have hbounded := hready.bounded
    have hcounted := hready.counted
    omega
  cases hstage : w.stage with
  | queued =>
    simp only [Keeps, hstage] at h
    exact hready h
  | opening todo =>
    simp only [Keeps, hstage] at h
    exact hready h.1
  | handling todo ending pause limit =>
    simp only [Keeps, hstage] at h
    obtain ⟨hcalled, -, hleaves⟩ := h
    have hretries : e.retries ≤ w.event.retries + 1 := hleaves.retries_le
    have hbounded := hcalled.bounded
    have hcounted := hcalled.counted
    omega
  | closing todo =>
    simp only [Keeps, hstage] at h
    have hretries : e.retries ≤ (standAfter e.standing todo).retries :=
      retries_le_standAfter e.standing todo
    exact ⟨Int.le_trans hretries h.le.1, h.le.2⟩

/-- A last action of the worker makes of the standing of its event what it is to. -/
def Core.Closes (c : Core) (w : Worker) (store : Store) : Prop :=
  ∀ action rest, w.stage = .closing (action :: rest) →
    ∀ e ∈ c.store.events, ∀ e' ∈ store.events, e.id = w.event.id → e'.id = w.event.id →
      e'.standing = action.stand e.standing

/-- A step of a worker changes its own event only, and in a way that the calls and the
standing fit the stage after the step. -/
theorem Core.Progress.keeps {c : Core} {w : Worker} {stage : Stage} {store : Store}
    (h : c.Progress w stage store) (hids : c.store.DistinctIds) (hcloses : c.Closes w store)
    (steady : Bool) (calls : Nat) :
    ∃ f, c.store.Revises store w.event.id f ∧ ∀ e ∈ c.store.events,
      (e.Lasts c.settings.policy.grace → (f e).Lasts c.settings.policy.grace) ∧
      (e.id = w.event.id → (steady = true → e.Lasts c.settings.policy.grace) →
        w.Keeps c.settings.policy.maxRetries steady calls e →
        Worker.Keeps { w with stage } c.settings.policy.maxRetries steady
          (calls + w.nextCalls) (f e)) := by
  cases h with
  | admitted hstage =>
    refine ⟨fun e => e, .refl _ _, fun e _ => ⟨fun hlasts => hlasts, fun _ _ hkeeps => ?_⟩⟩
    simp only [Worker.Keeps, Worker.nextCalls, hstage] at hkeeps ⊢
    exact ⟨hkeeps, List.Subset.refl _⟩
  | opens hstage hacts =>
    obtain ⟨f, hrevises, hturns⟩ := hacts.revises hids
    refine ⟨f, hrevises, fun e _ => ⟨(hturns e).lasts, fun _ _ hkeeps => ?_⟩⟩
    simp only [Worker.Keeps, Worker.nextCalls, hstage] at hkeeps ⊢
    obtain ⟨hready, hsubset⟩ := hkeeps
    rw [(hturns e).eq_of_opening (hsubset List.mem_cons_self)]
    exact ⟨hready, fun _ hx => hsubset (List.mem_cons_of_mem _ hx)⟩
  | calls earlier hstage hnonzero =>
    refine ⟨fun e => e, .refl _ _, fun e _ => ⟨fun hlasts => hlasts, fun _ _ hkeeps => ?_⟩⟩
    simp only [Worker.Keeps, Worker.nextCalls, hstage, if_neg hnonzero] at hkeeps ⊢
    obtain ⟨hready, -⟩ := hkeeps
    exact ⟨hready.called_succ, ⟨earlier, List.Subset.refl _⟩, hready.leaves⟩
  | neverCalls hstage hzero =>
    refine ⟨fun e => e, .refl _ _, fun e _ => ⟨fun hlasts => hlasts, fun _ hsteady hkeeps => ?_⟩⟩
    simp only [Worker.Keeps, Worker.nextCalls, hstage, if_pos hzero] at hkeeps ⊢
    obtain ⟨hready, -⟩ := hkeeps
    have hloose : steady = false := by
      refine Bool.eq_false_iff.2 fun hsteadily => (hsteady hsteadily).deadline_ne_zero ?_
      rw [hready.deadline, hzero]
    exact hready.leaves.rests_retryActions (hready.called hloose) _
  | timesOut hstage =>
    refine ⟨fun e => e, .refl _ _, fun e _ => ⟨fun hlasts => hlasts, fun _ _ hkeeps => ?_⟩⟩
    simp only [Worker.Keeps, Worker.nextCalls, hstage] at hkeeps ⊢
    obtain ⟨hcalled, -, hleaves⟩ := hkeeps
    exact hleaves.rests_retryActions hcalled _
  | waits hstage =>
    refine ⟨fun e => e, .refl _ _, fun e _ => ⟨fun hlasts => hlasts, fun _ _ hkeeps => ?_⟩⟩
    simp only [Worker.Keeps, Worker.nextCalls, hstage] at hkeeps ⊢
    exact hkeeps
  | handles hstage _ hacts =>
    obtain ⟨f, hrevises, hturns⟩ := hacts.revises hids
    refine ⟨f, hrevises, fun e _ => ⟨(hturns e).lasts, fun _ _ hkeeps => ?_⟩⟩
    simp only [Worker.Keeps, Worker.nextCalls, hstage] at hkeeps ⊢
    obtain ⟨hcalled, hplays, hleaves⟩ := hkeeps
    refine ⟨hcalled, ?_, hleaves.act hplays List.mem_cons_self (hturns e)⟩
    obtain ⟨earlier, hsubset⟩ := hplays
    exact ⟨earlier, fun _ hx => hsubset (List.mem_cons_of_mem _ hx)⟩
  | returns hstage =>
    refine ⟨fun e => e, .refl _ _, fun e _ => ⟨fun hlasts => hlasts, fun _ _ hkeeps => ?_⟩⟩
    simp only [Worker.Keeps, Worker.nextCalls, hstage] at hkeeps ⊢
    obtain ⟨hcalled, -, hleaves⟩ := hkeeps
    exact hleaves.rests_closingActions hcalled _
  | closes hstage hacts =>
    obtain ⟨f, hrevises, hturns⟩ := hacts.revises hids
    refine ⟨f, hrevises, fun e he => ⟨(hturns e).lasts, fun hid _ hkeeps => ?_⟩⟩
    simp only [Worker.Keeps, Worker.nextCalls, hstage] at hkeeps ⊢
    have hmem : f e ∈ store.events := by
      rw [hrevises.events]
      exact List.mem_map_of_mem he
    rw [hcloses _ _ hstage e he (f e) hmem hid ((hrevises.same e).1.trans hid)]
    exact hkeeps

end EventDispatch
