import EventDispatch.Proofs.Run.Core

/-!
# The event of a worker

**Input.** A worker, the stored event that it runs, and the two clocks.

**Invariant.** How far the worker is says what its event looks like
(`Worker.Fits`).  Until the handler is called the event is being run under the
deadline that the worker knows.  While the handler runs the event may also wait
for a retry that does not come due before the handler is out of time, or have
failed because the handler said so.  Afterwards it may wait for a retry that is
not due yet.

In a prompt run, the claim of an event that is being run lies no further back than
the call of its handler.

**Results.** Every step of a worker keeps this (`Progress.revises`), and so does
time that passes within the limit of the handler (`Fits.elapse`).
-/

namespace EventDispatch

/-! ## Deadlines and limits -/

section Limits

variable {grace deadline : Duration}

/-- A retry with this grace comes due only after a handler with this deadline is out
of time; the limit of a handler counts whole milliseconds. -/
def coversTimer (grace deadline : Duration) : Bool :=
  1000000 ≤ grace.nanos || (grace.nanos = 0 && deadline.nanos % 1000000 = 0)

theorem coversTimer_iff :
    coversTimer grace deadline = true ↔
      1000000 ≤ grace.nanos ∨ grace.nanos = 0 ∧ deadline.nanos % 1000000 = 0 := by
  simp [coversTimer]

theorem timeLimit_le (hpositive : 0 < deadline.nanos)
    (h : coversTimer grace deadline = true) :
    (timeLimit deadline : Int) * 1000000 ≤ deadline.nanos + grace.nanos := by
  rw [coversTimer_iff] at h
  unfold timeLimit
  omega

theorem timeLimit_lt (hpositive : 0 < deadline.nanos) :
    (timeLimit deadline : Int) * 1000000 < deadline.nanos + 1000000 := by
  unfold timeLimit
  omega

theorem nanos_saturatingAdd (h : 0 ≤ deadline.nanos + grace.nanos) :
    (deadline.saturatingAdd grace).nanos = deadline.nanos + grace.nanos ∨
      (deadline.saturatingAdd grace).nanos = Duration.greatest := by
  unfold Duration.saturatingAdd Duration.clamp
  split
  · split
    · exact Or.inl rfl
    · exact Or.inr rfl
  · next hlower =>
    simp only [Duration.least] at hlower
    omega

end Limits

/-! ## Events that rest -/

namespace Event

/-- The event does not come due before this point in time. -/
def RestsUntil (e : Event) (t : Int) : Prop := ∀ due, e.dueAt? = some due → t ≤ due.nanos

theorem RestsUntil.mono {e : Event} {t t' : Int} (h : e.RestsUntil t) (hle : t' ≤ t) :
    e.RestsUntil t' :=
  fun due hdue => Int.le_trans hle (h due hdue)

theorem RestsUntil.isOverdue_eq_false {e : Event} {now : Instant}
    (h : e.RestsUntil now.nanos) : e.isOverdue now = false := by
  unfold isOverdue EventDispatch.isOverdue
  cases hdue : EventDispatch.dueAt? e.updated e.deadline e.retries with
  | none => rfl
  | some due =>
    have hle : now.nanos ≤ due.nanos := h due hdue
    simpa [Instant.lt_iff] using hle

theorem nanos_of_dueAt? {e : Event} {due : Instant} (h : e.dueAt? = some due) :
    due.nanos = e.updated.nanos + e.deadline.nanos * e.retries.toNat := by
  obtain ⟨waiting, hscale, hadd⟩ := Option.bind_eq_some_iff.1 h
  rw [Instant.ofNanos?_eq_some_iff.1 hadd, Duration.ofNanos?_eq_some_iff.1 hscale]

/-- The event, sent back to wait for another run. -/
def sentBack (e : Event) (clock : Instant) (extension : Duration) : Event :=
  { e with
    status := .pending
    retries := e.retries + 1
    deadline := e.deadline.saturatingAdd extension
    updated := clock }

/-- What every recorded event keeps: its deadline is positive and covers the timer. -/
structure IsSound (grace : Duration) (e : Event) : Prop where
  positive : 0 < e.deadline.nanos
  retried : 0 ≤ e.retries
  covered : coversTimer grace e.deadline = true

section Sound

variable {grace : Duration} {e : Event}

theorem IsSound.congr (h : e.IsSound grace) {e' : Event} (hdeadline : e'.deadline = e.deadline)
    (hretries : e'.retries = e.retries) : e'.IsSound grace :=
  ⟨hdeadline ▸ h.positive, hretries ▸ h.retried, hdeadline ▸ h.covered⟩

theorem IsSound.nonneg_grace (h : e.IsSound grace) : 0 ≤ grace.nanos := by
  have hcovered := coversTimer_iff.1 h.covered
  omega

theorem IsSound.sentBack (h : e.IsSound grace) (clock : Instant) :
    (e.sentBack clock grace).IsSound grace := by
  have hpositive := h.positive
  have hgrace := h.nonneg_grace
  refine ⟨?_, ?_, ?_⟩
  · change 0 < (e.deadline.saturatingAdd grace).nanos
    rcases nanos_saturatingAdd (by omega : 0 ≤ e.deadline.nanos + grace.nanos) with hsum | hmax
    · omega
    · rw [hmax]
      decide
  · change 0 ≤ e.retries + 1
    have := h.retried
    omega
  · rcases coversTimer_iff.1 h.covered with hlong | ⟨hzero, hwhole⟩
    · exact coversTimer_iff.2 (Or.inl hlong)
    · have hsame : e.deadline.saturatingAdd grace = e.deadline := by
        unfold Duration.saturatingAdd
        rw [hzero, Int.add_zero, Duration.clamp_nanos]
      refine coversTimer_iff.2 (Or.inr ⟨hzero, ?_⟩)
      change (e.deadline.saturatingAdd grace).nanos % 1000000 = 0
      rw [hsame]
      exact hwhole

/-- An event that is sent back rests for at least its deadline and the grace. -/
theorem IsSound.restsUntil_sentBack (h : e.IsSound grace) (clock : Instant) :
    (e.sentBack clock grace).RestsUntil (clock.nanos + (e.deadline.nanos + grace.nanos)) := by
  intro due hdue
  have hnanos := nanos_of_dueAt? hdue
  have hpositive := h.positive
  have hgrace := h.nonneg_grace
  have hretries : (1 : Int) ≤ ((e.retries + 1).toNat : Int) := by
    have := h.retried
    omega
  -- One deadline is the least that it waits, and the calendar ends before the longest one does.
  have honce : (e.deadline.saturatingAdd grace).nanos * 1 ≤
      (e.deadline.saturatingAdd grace).nanos * ((e.retries + 1).toNat : Int) :=
    Int.mul_le_mul_of_nonneg_left hretries (Int.le_of_lt (h.sentBack clock).positive)
  rw [Int.mul_one] at honce
  have hwait : due.nanos = clock.nanos +
      (e.deadline.saturatingAdd grace).nanos * ((e.retries + 1).toNat : Int) := hnanos
  rcases nanos_saturatingAdd (by omega : 0 ≤ e.deadline.nanos + grace.nanos) with hsum | hmax
  · omega
  · have hcalendar := due.upper
    have hstart := clock.lower
    rw [hmax] at honce hwait
    simp only [Duration.greatest, Instant.greatest, Instant.least] at *
    omega

/-- An event that is sent back without a retry is not due at once. -/
theorem IsSound.restsUntil_reset (h : e.IsSound grace) (clock : Instant) :
    ({ e with status := .pending, updated := clock } : Event).RestsUntil clock.nanos := by
  intro due hdue
  have hnanos : due.nanos = clock.nanos + e.deadline.nanos * (e.retries.toNat : Int) :=
    nanos_of_dueAt? hdue
  have hwait : 0 ≤ e.deadline.nanos * (e.retries.toNat : Int) :=
    Int.mul_nonneg (Int.le_of_lt h.positive) (Int.natCast_nonneg _)
  omega

/-- No call but a retry changes a deadline or a count of retries. -/
theorem IsSound.effectOn (h : e.IsSound grace) (s : Store) {call : Store.Call}
    (hretry : ∀ clock id extension, call = .retry clock id extension → extension = grace) :
    (call.effectOn s e).IsSound grace := by
  cases call with
  | insert | append => exact h
  | retry clock id extension =>
    have hextension : extension = grace := hretry clock id extension rfl
    subst hextension
    simp only [Store.Call.effectOn]
    split
    · exact h.sentBack clock
    · exact h
  | claim | setStatus | resetProcessing | resetStale =>
    simp only [Store.Call.effectOn]
    split
    · exact h.congr rfl rfl
    · exact h

/-- An event has not expired as long as its deadline lasts. -/
theorem hasExpired_eq_false {now : Instant}
    (h : now.nanos ≤ e.updated.nanos + e.deadline.nanos) : Store.hasExpired e now = false := by
  unfold Store.hasExpired
  cases hend : e.updated.add? e.deadline with
  | none => rfl
  | some t =>
    have ht : t.nanos = e.updated.nanos + e.deadline.nanos := Instant.ofNanos?_eq_some_iff.1 hend
    simp only [Option.any_some, decide_eq_false_iff_not, Instant.lt_iff]
    omega

end Sound
end Event

/-! ## What an action makes of its event -/

/-- What an action for an event may make of it. -/
inductive Action.Turns (p : Policy) (clock : Instant) (action : Action) (e : Event) :
    Event → Prop
  | keeps : Turns p clock action e e
  | sendsBack :
      action = .returnAfterError ∨ action = .giveBack →
      e.status = .processing →
      Turns p clock action e (e.sentBack clock p.grace)
  | fails :
      action = .markFailed →
      Turns p clock action e { e with status := .failed, updated := clock }
  | completes :
      action = .markCompleted →
      Turns p clock action e { e with status := .completed, updated := clock }

theorem Action.Turns.isSound {p : Policy} {clock : Instant} {action : Action} {e e' : Event}
    (h : action.Turns p clock e e') (hsound : e.IsSound p.grace) : e'.IsSound p.grace := by
  cases h with
  | keeps => exact hsound
  | sendsBack => exact hsound.sentBack clock
  | fails | completes => exact hsound.congr rfl rfl

/-- Each event is changed in its place, and only one of them is. -/
structure Store.Revises (s s' : Store) (id : Uuid) (f : Event → Event) : Prop where
  events : s'.events = s.events.map f
  same : ∀ e, (f e).id = e.id ∧ (f e).tag = e.tag ∧ (f e).owner = e.owner
  other : ∀ e, e.id ≠ id → f e = e

theorem Store.Revises.refl (s : Store) (id : Uuid) : s.Revises s id fun e => e where
  events := (List.map_id' s.events).symm
  same _ := ⟨rfl, rfl, rfl⟩
  other _ _ := rfl

theorem Store.Revises.distinctIds {s s' : Store} {id : Uuid} {f : Event → Event}
    (h : s.Revises s' id f) (hids : s.DistinctIds) : s'.DistinctIds := by
  unfold DistinctIds
  rw [h.events]
  refine List.pairwise_map.2 (hids.imp fun {a b} hab => ?_)
  rw [(h.same a).1, (h.same b).1]
  exact hab

theorem Core.Acts.revises {c : Core} {p : Policy} {target : Event} {action : Action}
    {store : Store} (h : c.Acts p target action store) (hids : c.store.DistinctIds) :
    ∃ f, c.store.Revises store target.id f ∧ ∀ e, action.Turns p c.now e (f e) := by
  rcases h with rfl | ⟨row, call, hcall, rfl⟩
  · exact ⟨fun e => e, .refl _ _, fun e => .keeps⟩
  · refine ⟨call.effectOn c.store, ⟨?_, fun e => by simp, ?_⟩, ?_⟩
    · rw [Store.events_after hids]
      rcases Action.call?_cases hcall with ⟨written, rfl⟩ | rfl | rfl | rfl
      all_goals exact List.append_nil _
    · intro e hid
      rcases Action.call?_cases hcall with ⟨written, rfl⟩ | rfl | rfl | rfl
      all_goals simp [Store.Call.effectOn, hid]
    · intro e
      cases action with
      | narrate | sleep | pass => cases hcall
      | append =>
        cases hcall
        exact .keeps
      | returnAfterError | giveBack =>
        cases hcall
        simp only [Store.Call.effectOn]
        split
        · next hgranted => exact .sendsBack (by simp) hgranted.2
        · exact .keeps
      | markFailed =>
        cases hcall
        simp only [Store.Call.effectOn]
        split
        · exact .fails rfl
        · exact .keeps
      | markCompleted =>
        cases hcall
        simp only [Store.Call.effectOn]
        split
        · exact .completes rfl
        · exact .keeps

/-! ## The stages of a worker -/

namespace Handler

/-- Some play for the event logs a fatal failure. -/
def LogsFatal (h : Handler) (target : Event) : Prop :=
  ∃ earlier message, Deed.log .fatal message ∈ (h.play earlier target).deeds

/-- These actions are left of a play for the event. -/
def Plays (h : Handler) (target : Event) (todo : List Action) : Prop :=
  ∃ earlier, todo ⊆ (h.play earlier target).deeds.flatMap (Deed.actions target)

/-- The stored event before the handler is called for it. -/
structure Awaits (target : Event) (prompt : Bool) (now : Instant) (e : Event) : Prop where
  status : e.status = .processing
  deadline : e.deadline = target.deadline
  claimed : prompt = true → now.nanos ≤ e.updated.nanos

/-- The stored event while the handler runs for it. -/
inductive Holds (h : Handler) (target : Event) (prompt : Bool) (now : Instant)
    (uptime limit : Nat) (e : Event) : Prop
  | runs :
      e.status = .processing →
      e.deadline = target.deadline →
      (prompt = true → now.nanos + limit * 1000000 ≤
        e.updated.nanos + (timeLimit target.deadline + uptime) * 1000000) →
      Holds h target prompt now uptime limit e
  | rests :
      e.status = .pending →
      e.RestsUntil (now.nanos + ((limit : Int) - uptime) * 1000000) →
      Holds h target prompt now uptime limit e
  | failed :
      e.status = .failed →
      h.LogsFatal target →
      Holds h target prompt now uptime limit e

end Handler

/-- What the stored event of a worker looks like, by how far the worker is. -/
def Worker.Fits (w : Worker) (prompt : Bool) (now : Instant) (uptime : Nat) (e : Event) :
    Prop :=
  match w.stage with
  | .queued => Handler.Awaits w.event prompt now e
  | .opening todo => Handler.Awaits w.event prompt now e ∧ todo ⊆ openingActions w.event
  | .handling todo _ _ limit =>
    uptime ≤ limit ∧ limit ≤ uptime + timeLimit w.event.deadline ∧
      w.handler.Plays w.event todo ∧ w.handler.Holds w.event prompt now uptime limit e
  | .closing _ => e.status ≠ .new ∧ (e.status = .pending → e.RestsUntil now.nanos)

theorem exists_log_of_markFailed_mem {e : Event} {d : Deed} (h : Action.markFailed ∈ d.actions e) :
    ∃ message, d = .log .fatal message := by
  cases d with
  | log level message =>
    cases level with
    | fatal => exact ⟨message, rfl⟩
    | info | error => simp [Deed.actions, logActions] at h
  | narrate | sleep | pass => simp [Deed.actions] at h

theorem markCompleted_not_mem_actions (e : Event) (d : Deed) :
    Action.markCompleted ∉ d.actions e := by
  cases d with
  | log level message => cases level <;> simp [Deed.actions, logActions]
  | narrate | sleep | pass => simp [Deed.actions]

namespace Handler

variable {h : Handler} {target : Event} {todo : List Action}

theorem Plays.logsFatal (hplays : h.Plays target todo) (hmem : Action.markFailed ∈ todo) :
    h.LogsFatal target := by
  obtain ⟨earlier, hsubset⟩ := hplays
  obtain ⟨d, hd, haction⟩ := List.mem_flatMap.1 (hsubset hmem)
  obtain ⟨message, rfl⟩ := exists_log_of_markFailed_mem haction
  exact ⟨earlier, message, hd⟩

theorem Plays.markCompleted_not_mem (hplays : h.Plays target todo) :
    Action.markCompleted ∉ todo := by
  intro hmem
  obtain ⟨earlier, hsubset⟩ := hplays
  obtain ⟨d, -, haction⟩ := List.mem_flatMap.1 (hsubset hmem)
  exact markCompleted_not_mem_actions target d haction

end Handler

/-- The first actions of a worker leave its event as it is. -/
theorem Action.Turns.eq_of_opening {p : Policy} {clock : Instant} {target e e' : Event}
    {action : Action} (hmem : action ∈ openingActions target)
    (h : action.Turns p clock e e') : e' = e := by
  have hplain : action ≠ .returnAfterError ∧ action ≠ .giveBack ∧ action ≠ .markFailed ∧
      action ≠ .markCompleted := by
    simp only [openingActions, logActions, List.append_nil, List.mem_cons,
      List.not_mem_nil, or_false] at hmem
    rcases hmem with rfl | rfl <;> simp
  cases h with
  | keeps => rfl
  | sendsBack hback =>
    rcases hback with hback | hback
    · exact absurd hback hplain.1
    · exact absurd hback hplain.2.1
  | fails hfail => exact absurd hfail hplain.2.2.1
  | completes hcomplete => exact absurd hcomplete hplain.2.2.2

namespace Handler

variable {h : Handler} {target e e' : Event} {prompt : Bool} {now : Instant}
  {uptime limit : Nat} {p : Policy} {action : Action}

/-- An action of a handler keeps what holds of its event. -/
theorem Holds.act (hholds : h.Holds target prompt now uptime limit e) {todo : List Action}
    (hplays : h.Plays target todo) (hmem : action ∈ todo) (hsound : e.IsSound p.grace)
    (hlimit : limit ≤ uptime + timeLimit target.deadline)
    (hturns : action.Turns p now e e') : h.Holds target prompt now uptime limit e' := by
  cases hturns with
  | keeps => exact hholds
  | sendsBack _ hrun =>
    cases hholds with
    | runs _ hdeadline _ =>
      refine .rests rfl ((hsound.restsUntil_sentBack now).mono ?_)
      have hcovered := timeLimit_le hsound.positive hsound.covered
      rw [← hdeadline] at hlimit
      omega
    | rests hstatus => simp [hstatus] at hrun
    | failed hstatus => simp [hstatus] at hrun
  | fails haction =>
    subst haction
    exact .failed rfl (hplays.logsFatal hmem)
  | completes haction =>
    subst haction
    exact absurd hmem hplays.markCompleted_not_mem

theorem Holds.ne_new (hholds : h.Holds target prompt now uptime limit e) :
    e.status ≠ .new := by
  cases hholds with
  | runs hstatus | rests hstatus | failed hstatus => simp [hstatus]

theorem Holds.restsUntil_now (hholds : h.Holds target prompt now uptime limit e)
    (hlimit : uptime ≤ limit) (hstatus : e.status = .pending) : e.RestsUntil now.nanos := by
  cases hholds with
  | runs hrun => simp [hrun] at hstatus
  | rests _ hrests => exact hrests.mono (by omega)
  | failed hfailed => simp [hfailed] at hstatus

end Handler

/-- The last actions of a worker keep its event from coming due at once. -/
theorem Action.Turns.closing {p : Policy} {now : Instant} {action : Action} {e e' : Event}
    (h : action.Turns p now e e') (hsound : e.IsSound p.grace)
    (hfits : e.status ≠ .new ∧ (e.status = .pending → e.RestsUntil now.nanos)) :
    e'.status ≠ .new ∧ (e'.status = .pending → e'.RestsUntil now.nanos) := by
  cases h with
  | keeps => exact hfits
  | sendsBack =>
    refine ⟨by simp [Event.sentBack], fun _ => ?_⟩
    refine (hsound.restsUntil_sentBack now).mono ?_
    have hpositive := hsound.positive
    have hgrace := hsound.nonneg_grace
    omega
  | fails => exact ⟨by simp, by simp⟩
  | completes => exact ⟨by simp, by simp⟩

/-- A step of a worker changes its own event only, and in a way that fits the stage
after the step. -/
theorem Core.Progress.revises {c : Core} {w : Worker} {stage : Stage} {store : Store}
    (h : c.Progress w stage store) (hids : c.store.DistinctIds) (prompt : Bool) :
    ∃ f, c.store.Revises store w.event.id f ∧
      ∀ e, e.IsSound c.settings.policy.grace →
        (f e).IsSound c.settings.policy.grace ∧
          (w.Fits prompt c.now c.uptime e →
            Worker.Fits { w with stage } prompt c.now c.uptime (f e)) := by
  cases h with
  | admitted hstage =>
    refine ⟨fun e => e, .refl _ _, fun e hsound => ⟨hsound, fun hfits => ?_⟩⟩
    simp only [Worker.Fits, hstage] at hfits
    exact ⟨hfits, List.Subset.refl _⟩
  | opens hstage hacts =>
    obtain ⟨f, hrevises, hturns⟩ := hacts.revises hids
    refine ⟨f, hrevises, fun e hsound => ⟨(hturns e).isSound hsound, fun hfits => ?_⟩⟩
    simp only [Worker.Fits, hstage] at hfits
    obtain ⟨hawaits, hsubset⟩ := hfits
    rw [(hturns e).eq_of_opening (hsubset List.mem_cons_self)]
    exact ⟨hawaits, fun _ hx => hsubset (List.mem_cons_of_mem _ hx)⟩
  | calls earlier hstage =>
    refine ⟨fun e => e, .refl _ _, fun e hsound => ⟨hsound, fun hfits => ?_⟩⟩
    simp only [Worker.Fits, hstage] at hfits
    obtain ⟨hawaits, -⟩ := hfits
    refine ⟨by omega, Nat.le_refl _, ⟨earlier, List.Subset.refl _⟩, ?_⟩
    refine .runs hawaits.status hawaits.deadline fun hprompt => ?_
    have hclaimed := hawaits.claimed hprompt
    push_cast
    omega
  | neverCalls hstage =>
    refine ⟨fun e => e, .refl _ _, fun e hsound => ⟨hsound, fun hfits => ?_⟩⟩
    simp only [Worker.Fits, hstage] at hfits
    simp [Worker.Fits, hfits.1.status]
  | timesOut hstage | returns hstage =>
    refine ⟨fun e => e, .refl _ _, fun e hsound => ⟨hsound, fun hfits => ?_⟩⟩
    simp only [Worker.Fits, hstage] at hfits
    obtain ⟨hlimit, -, -, hholds⟩ := hfits
    exact ⟨hholds.ne_new, hholds.restsUntil_now hlimit⟩
  | waits hstage =>
    refine ⟨fun e => e, .refl _ _, fun e hsound => ⟨hsound, fun hfits => ?_⟩⟩
    simp only [Worker.Fits, hstage] at hfits
    exact hfits
  | handles hstage _ hacts =>
    obtain ⟨f, hrevises, hturns⟩ := hacts.revises hids
    refine ⟨f, hrevises, fun e hsound => ⟨(hturns e).isSound hsound, fun hfits => ?_⟩⟩
    simp only [Worker.Fits, hstage] at hfits
    obtain ⟨hbefore, hlimit, hplays, hholds⟩ := hfits
    refine ⟨hbefore, hlimit, ?_, ?_⟩
    · obtain ⟨earlier, hsubset⟩ := hplays
      exact ⟨earlier, fun _ hx => hsubset (List.mem_cons_of_mem _ hx)⟩
    · exact hholds.act hplays List.mem_cons_self hsound hlimit (hturns e)
  | closes hstage hacts =>
    obtain ⟨f, hrevises, hturns⟩ := hacts.revises hids
    refine ⟨f, hrevises, fun e hsound => ⟨(hturns e).isSound hsound, fun hfits => ?_⟩⟩
    simp only [Worker.Fits, hstage] at hfits
    exact (hturns e).closing hsound hfits

theorem Worker.Fits.ne_new {w : Worker} {prompt : Bool} {now : Instant} {uptime : Nat}
    {e : Event} (h : w.Fits prompt now uptime e) : e.status ≠ .new := by
  cases hstage : w.stage with
  | queued =>
    simp only [Worker.Fits, hstage] at h
    simp [h.status]
  | opening todo =>
    simp only [Worker.Fits, hstage] at h
    simp [h.1.status]
  | handling todo ending pause limit =>
    simp only [Worker.Fits, hstage] at h
    exact h.2.2.2.ne_new
  | closing todo =>
    simp only [Worker.Fits, hstage] at h
    exact h.1

/-- The event of a worker is not due. -/
theorem Worker.Fits.isOverdue_eq_false {w : Worker} {prompt : Bool} {now : Instant}
    {uptime : Nat} {e : Event} (h : w.Fits prompt now uptime e)
    (hstatus : e.status = .pending) : e.isOverdue now = false := by
  refine Event.RestsUntil.isOverdue_eq_false ?_
  cases hstage : w.stage with
  | queued =>
    simp only [Worker.Fits, hstage] at h
    simp [h.status] at hstatus
  | opening todo =>
    simp only [Worker.Fits, hstage] at h
    simp [h.1.status] at hstatus
  | handling todo ending pause limit =>
    simp only [Worker.Fits, hstage] at h
    exact h.2.2.2.restsUntil_now h.1 hstatus
  | closing todo =>
    simp only [Worker.Fits, hstage] at h
    exact h.2 hstatus

/-! ## Time that passes -/

/-- A worker goes along with time that passes: no further than the limit of its
handler, not while its last actions are left, and in a prompt run not while it waits
for its handler to be called. -/
def Worker.maySpend (w : Worker) (prompt : Bool) (uptime milliseconds : Nat) : Bool :=
  match w.stage with
  | .queued => !prompt
  | .opening _ => !prompt
  | .handling _ _ _ limit => uptime + milliseconds ≤ limit
  | .closing _ => false

theorem Instant.nanos_shift_le (t : Instant) {n : Int} (hn : 0 ≤ n) :
    (t.shift n).nanos ≤ t.nanos + n := by
  unfold shift
  split
  · split
    · exact Int.le_refl _
    · next hupper => exact Int.le_of_lt (Int.not_le.1 hupper)
  · next hlower =>
    have hstart := t.lower
    omega

theorem Handler.Holds.elapse {h : Handler} {target e : Event} {prompt : Bool} {now now' : Instant}
    {uptime limit milliseconds : Nat} (hholds : h.Holds target prompt now uptime limit e)
    (hnow : now'.nanos ≤ now.nanos + milliseconds * 1000000) :
    h.Holds target prompt now' (uptime + milliseconds) limit e := by
  cases hholds with
  | runs hstatus hdeadline hage =>
    refine .runs hstatus hdeadline fun hprompt => ?_
    have hold := hage hprompt
    push_cast
    omega
  | rests hstatus hrests =>
    refine .rests hstatus (hrests.mono ?_)
    push_cast
    omega
  | failed hstatus hfatal => exact .failed hstatus hfatal

theorem Worker.Fits.elapse {w : Worker} {prompt : Bool} {now : Instant} {uptime : Nat}
    {e : Event} (h : w.Fits prompt now uptime e) {milliseconds : Nat}
    (hspends : w.maySpend prompt uptime milliseconds = true) :
    w.Fits prompt (now.shift (milliseconds * 1000000)) (uptime + milliseconds) e := by
  have hnow := now.nanos_shift_le (n := milliseconds * 1000000) (by omega)
  cases hstage : w.stage with
  | queued =>
    simp only [Worker.Fits, Worker.maySpend, hstage] at h hspends ⊢
    exact ⟨h.status, h.deadline, fun hprompt => by simp [hprompt] at hspends⟩
  | opening todo =>
    simp only [Worker.Fits, Worker.maySpend, hstage] at h hspends ⊢
    exact ⟨⟨h.1.status, h.1.deadline, fun hprompt => by simp [hprompt] at hspends⟩, h.2⟩
  | handling todo ending pause limit =>
    simp only [Worker.Fits, Worker.maySpend, hstage, decide_eq_true_eq] at h hspends ⊢
    obtain ⟨-, hlimit, hplays, hholds⟩ := h
    exact ⟨hspends, by omega, hplays, hholds.elapse hnow⟩
  | closing todo => simp [Worker.maySpend, hstage] at hspends

/-! ## Events that an operator sends back -/

/-- A worker that waits for its handler to be called, or whose handler is not out of
time. -/
def Worker.isLive (w : Worker) (uptime : Nat) : Bool :=
  match w.stage with
  | .queued => true
  | .opening _ => true
  | .handling _ _ _ limit => uptime < limit
  | .closing _ => false

section Reset

variable {w : Worker} {now : Instant} {uptime : Nat} {grace : Duration} {e : Event}

/-- In a prompt run, the event of a live worker has not expired. -/
theorem Worker.Fits.hasExpired_eq_false (h : w.Fits true now uptime e)
    (hlive : w.isLive uptime = true) (hsound : e.IsSound grace)
    (hrun : e.status = .processing) : Store.hasExpired e now = false := by
  have hpositive := hsound.positive
  refine Event.hasExpired_eq_false ?_
  cases hstage : w.stage with
  | queued =>
    simp only [Worker.Fits, hstage] at h
    have hclaimed := h.claimed rfl
    omega
  | opening todo =>
    simp only [Worker.Fits, hstage] at h
    have hclaimed := h.1.claimed rfl
    omega
  | handling todo ending pause limit =>
    simp only [Worker.Fits, Worker.isLive, hstage, decide_eq_true_eq] at h hlive
    obtain ⟨-, -, -, hholds⟩ := h
    cases hholds with
    | runs _ hdeadline hage =>
      have hclaimed := hage rfl
      have hlimit := timeLimit_lt hpositive
      rw [hdeadline] at hlimit ⊢
      omega
    | rests hstatus | failed hstatus => simp [hstatus] at hrun
  | closing todo => simp [Worker.isLive, hstage] at hlive

theorem effectOn_resetStale_of_isLive (s : Store) (h : w.Fits true now uptime e)
    (hlive : w.isLive uptime = true) (hsound : e.IsSound grace) :
    (Store.Call.resetStale now now).effectOn s e = e := by
  simp only [Store.Call.effectOn]
  split
  · next hexpired =>
    rw [h.hasExpired_eq_false hlive hsound hexpired.1] at hexpired
    cases hexpired.2
  · rfl

/-- A reset keeps what holds of the event of a worker: if the worker is not live, its
event rests from now on. -/
theorem Worker.Fits.resetStale (s : Store) (h : w.Fits true now uptime e)
    (hsound : e.IsSound grace) :
    w.Fits true now uptime ((Store.Call.resetStale now now).effectOn s e) := by
  cases hlive : w.isLive uptime with
  | true =>
    rw [effectOn_resetStale_of_isLive s h hlive hsound]
    exact h
  | false =>
    simp only [Store.Call.effectOn]
    split
    · have hrests := hsound.restsUntil_reset now
      cases hstage : w.stage with
      | queued | opening => simp [Worker.isLive, hstage] at hlive
      | handling todo ending pause limit =>
        simp only [Worker.Fits, Worker.isLive, hstage, decide_eq_false_iff_not] at h hlive ⊢
        obtain ⟨hbefore, hlimit, hplays, -⟩ := h
        exact ⟨hbefore, hlimit, hplays, .rests rfl (hrests.mono (by omega))⟩
      | closing todo =>
        simp only [Worker.Fits, hstage]
        exact ⟨by simp, fun _ => hrests⟩
    · exact h

end Reset

end EventDispatch
