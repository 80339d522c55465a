import EventDispatch.Proofs.Store.Lifecycle
import Mathlib.Data.List.Forall2

/-!
# The schedule of retries

**Input.** Any calls of a store in any order, from the empty one on, in which every
event sent back with a retry is given one and the same grace, which is not negative.

**Invariant.** An event is `Scheduled` from what it was recorded as: its deadline is
the first one with the grace added once for each retry, or the longest duration if
that is less.  No call changes the count of retries without the deadline or the
other way round, and an addition that stopped at the longest duration stops there
again.

**Results.** `schedule_of_calls`: the recorded events and those of the store match one
by one in this way, and each retry makes the time that an event has to wait longer.
-/

namespace EventDispatch

theorem Duration.nanos_saturatingAdd_eq_min {d e : Duration} (h : 0 ≤ d.nanos + e.nanos) :
    (d.saturatingAdd e).nanos = min greatest (d.nanos + e.nanos) := by
  have hlower : least ≤ d.nanos + e.nanos := Int.le_trans (by decide) h
  unfold saturatingAdd clamp
  rw [dif_pos hlower]
  split
  · next hupper => exact (Int.min_eq_right hupper).symm
  · next hupper => exact (Int.min_eq_left (Int.le_of_not_le hupper)).symm

namespace Event

/-- How many nanoseconds the event has to wait for its next run. -/
def delay (e : Event) : Int := e.deadline.nanos * e.retries

/-- How long the event has to wait for its next run, if that is representable. -/
def window? (e : Event) : Option Duration := e.deadline.scale? e.retries.toNat

theorem dueAt?_eq_bind_window? (e : Event) : e.dueAt? = e.window?.bind e.updated.add? := rfl

theorem window?_eq_some_iff {e : Event} (hretried : 0 ≤ e.retries) {wait : Duration} :
    e.window? = some wait ↔ wait.nanos = e.delay := by
  have hcount : (e.retries.toNat : Int) = e.retries := Int.toNat_of_nonneg hretried
  rw [delay, ← hcount]
  exact Duration.ofNanos?_eq_some_iff

/-- The event is what `first` becomes by retries that extend its deadline by `grace`. -/
structure Scheduled (grace : Duration) (first e : Event) : Prop where
  id : e.id = first.id
  retried : 0 ≤ e.retries
  deadline : e.deadline.nanos =
    min Duration.greatest (first.deadline.nanos + e.retries * grace.nanos)

/-- The event has to wait longer than before: exactly, and as far as that is representable. -/
structure WaitsLonger (e e' : Event) : Prop where
  exact : e.delay < e'.delay
  window : ∀ wait', e'.window? = some wait' →
    ∃ wait, e.window? = some wait ∧ wait.nanos < wait'.nanos

section Scheduled

variable {grace : Duration} {first e e' : Event}

theorem Scheduled.deadline_pos (h : Scheduled grace first e) (hgrace : 0 ≤ grace.nanos)
    (hfirst : 0 < first.deadline.nanos) : 0 < e.deadline.nanos := by
  have hextended : 0 ≤ e.retries * grace.nanos := Int.mul_nonneg h.retried hgrace
  rw [h.deadline]
  refine Int.lt_min.2 ⟨by decide, ?_⟩
  omega

theorem Scheduled.congr (h : Scheduled grace first e) (hid : e'.id = e.id)
    (hretries : e'.retries = e.retries) (hdeadline : e'.deadline = e.deadline) :
    Scheduled grace first e' :=
  ⟨hid.trans h.id, hretries ▸ h.retried, by rw [hdeadline, hretries, h.deadline]⟩

/-- One more retry is one more grace, also where the addition stops at the longest duration. -/
theorem Scheduled.retry (h : Scheduled grace first e) (hgrace : 0 ≤ grace.nanos)
    (hfirst : 0 < first.deadline.nanos) (hid : e'.id = e.id)
    (hretries : e'.retries = e.retries + 1)
    (hdeadline : e'.deadline = e.deadline.saturatingAdd grace) : Scheduled grace first e' := by
  have hpositive := h.deadline_pos hgrace hfirst
  have hsum : (e.deadline.saturatingAdd grace).nanos =
      min Duration.greatest (e.deadline.nanos + grace.nanos) :=
    Duration.nanos_saturatingAdd_eq_min (by omega)
  have honce : (e.retries + 1) * grace.nanos = e.retries * grace.nanos + grace.nanos := by
    rw [Int.add_mul, Int.one_mul]
  have hretried := h.retried
  refine ⟨hid.trans h.id, by omega, ?_⟩
  rw [hdeadline, hsum, h.deadline, hretries, honce]
  omega

/-- No call parts the count of retries from the deadline. -/
theorem Scheduled.effectOn (h : Scheduled grace first e) (hgrace : 0 ≤ grace.nanos)
    (hfirst : 0 < first.deadline.nanos) (s : Store) {c : Store.Call}
    (hextends : ∀ clock id extension, c = .retry clock id extension → extension = grace) :
    Scheduled grace first (c.effectOn s e) := by
  cases c with
  | insert | append => exact h
  | retry clock id extension =>
    have hsame : extension = grace := hextends clock id extension rfl
    subst hsame
    simp only [Store.Call.effectOn]
    split
    · exact h.retry hgrace hfirst rfl rfl rfl
    · exact h
  | claim | setStatus | resetProcessing | resetStale =>
    simp only [Store.Call.effectOn]
    split
    · exact h.congr rfl rfl rfl
    · exact h

/-- A retry of a deadline that does not shrink makes the event wait longer. -/
theorem WaitsLonger.of_retry (hpositive : 0 < e.deadline.nanos) (hretried : 0 ≤ e.retries)
    (hretries : e'.retries = e.retries + 1) (hlonger : e.deadline.nanos ≤ e'.deadline.nanos) :
    e.WaitsLonger e' := by
  have hexact : e.delay < e'.delay := by
    unfold delay
    calc e.deadline.nanos * e.retries ≤ e'.deadline.nanos * e.retries :=
          Int.mul_le_mul_of_nonneg_right hlonger hretried
      _ < e'.deadline.nanos * e.retries + e'.deadline.nanos := by omega
      _ = e'.deadline.nanos * e'.retries := by rw [hretries, Int.mul_add, Int.mul_one]
  refine ⟨hexact, fun wait' hwait' => ?_⟩
  -- What comes after the retry is representable, so what came before it is, being less.
  have hafter := (window?_eq_some_iff (by omega)).1 hwait'
  have hlower : Duration.least ≤ e.delay :=
    Int.le_trans (by decide) (Int.mul_nonneg (Int.le_of_lt hpositive) hretried)
  have hupper : e.delay ≤ Duration.greatest := by
    have := wait'.upper
    omega
  refine ⟨⟨e.delay, hlower, hupper⟩, (window?_eq_some_iff hretried).2 rfl, ?_⟩
  rw [hafter]
  exact hexact

end Scheduled
end Event

namespace Store

variable {grace : Duration} {s s' : Store}

/-- Recorded events get fresh identifiers, and every retry extends a deadline by `grace`. -/
def extendsBy (grace : Duration) (s : Store) (c : Call) : Bool :=
  c.isFresh s &&
    match c with
    | .retry _ _ extension => extension = grace
    | _ => true

theorem extension_of_extendsBy {c : Call} (h : extendsBy grace s c = true) :
    ∀ clock id extension, c = .retry clock id extension → extension = grace := by
  rintro clock id extension rfl
  simp only [extendsBy, Bool.and_eq_true, decide_eq_true_eq] at h
  exact h.2

/-- One call keeps every stored event on the schedule of the one that was recorded. -/
theorem scheduled_after (hids : s.DistinctIds) (hgrace : 0 ≤ grace.nanos) {firsts : List Event}
    (hfirsts : ∀ first ∈ firsts, 0 < first.deadline.nanos)
    (h : List.Forall₂ (Event.Scheduled grace) firsts s.events) {c : Call}
    (hallowed : extendsBy grace s c = true) :
    List.Forall₂ (Event.Scheduled grace) (firsts ++ c.recorded) (s.after c).events := by
  have hextends := extension_of_extendsBy hallowed
  have hkept : List.Forall₂ (Event.Scheduled grace) firsts (s.events.map (c.effectOn s)) := by
    refine List.forall₂_map_right_iff.2 ?_
    refine (List.forall₂_and_left _ _).2 ⟨hfirsts, h⟩ |>.imp ?_
    rintro first e ⟨hfirst, he⟩
    exact he.effectOn hgrace hfirst s hextends
  have hnew : List.Forall₂ (Event.Scheduled grace) c.recorded c.recorded := by
    refine List.forall₂_same.2 fun e he => ?_
    obtain ⟨id, now, request, -, rfl, -⟩ := Call.eq_insert_of_mem_recorded he
    refine ⟨rfl, Int.le_refl 0, ?_⟩
    have hupper := request.deadline.upper
    simp [NewEvent.recorded, Int.min_eq_right hupper]
  rw [events_after hids]
  exact List.rel_append hkept hnew

/-- Calls keep every stored event on the schedule of the one that was recorded. -/
theorem scheduled_of_afterAll? (hids : s.DistinctIds) (hgrace : 0 ≤ grace.nanos)
    {firsts : List Event} (hfirsts : ∀ first ∈ firsts, 0 < first.deadline.nanos)
    (h : List.Forall₂ (Event.Scheduled grace) firsts s.events) {calls : List Call}
    (hrun : s.afterAll? (extendsBy grace) calls = some s') :
    s'.DistinctIds ∧
      (∀ first ∈ firsts ++ calls.flatMap Call.recorded, 0 < first.deadline.nanos) ∧
      List.Forall₂ (Event.Scheduled grace) (firsts ++ calls.flatMap Call.recorded) s'.events := by
  induction calls generalizing s firsts with
  | nil =>
    cases hrun
    simpa using ⟨hids, hfirsts, h⟩
  | cons c rest ih =>
    simp only [afterAll?] at hrun
    split at hrun
    · next hallowed =>
      have hfresh : c.isFresh s = true := by
        simp only [extendsBy, Bool.and_eq_true] at hallowed
        exact hallowed.1
      have hfirsts' : ∀ first ∈ firsts ++ c.recorded, 0 < first.deadline.nanos := by
        intro first hfirst
        rcases List.mem_append.1 hfirst with hold | hnew
        · exact hfirsts first hold
        · exact Call.deadline_pos_of_mem_recorded hnew
      have := ih (hids.after hfresh) hfirsts' (scheduled_after hids hgrace hfirsts h hallowed) hrun
      simpa using this
    · cases hrun

/-- A call that changes the count of retries makes the event wait longer. -/
theorem waitsLonger_effectOn {first e : Event} (h : Event.Scheduled grace first e)
    (hgrace : 0 ≤ grace.nanos) (hfirst : 0 < first.deadline.nanos) {c : Call}
    (hallowed : extendsBy grace s c = true)
    (hretried : (c.effectOn s e).retries ≠ e.retries) : e.WaitsLonger (c.effectOn s e) := by
  cases c with
  | insert | append => exact absurd rfl hretried
  | retry clock id extension =>
    have hsame : extension = grace := extension_of_extendsBy hallowed clock id extension rfl
    subst hsame
    simp only [Call.effectOn] at hretried ⊢
    split
    · have hpositive := h.deadline_pos hgrace hfirst
      refine .of_retry hpositive h.retried rfl ?_
      change e.deadline.nanos ≤ (e.deadline.saturatingAdd extension).nanos
      rw [Duration.nanos_saturatingAdd_eq_min (by omega)]
      exact Int.le_min.2 ⟨e.deadline.upper, by omega⟩
    · next hrefused => exact absurd (by rw [if_neg hrefused]) hretried
  | claim | setStatus | resetProcessing | resetStale =>
    refine absurd ?_ hretried
    simp only [Call.effectOn]
    split <;> rfl

/-- With one grace for all retries, every stored event has exactly the deadline that it was
recorded with and the grace once for each of its retries, up to the longest duration; it is
positive.  Each call that adds a retry makes the event wait longer for its next run. -/
theorem schedule_of_calls (hgrace : 0 ≤ grace.nanos) {calls : List Call}
    (hrun : empty.afterAll? (extendsBy grace) calls = some s) :
    List.Forall₂ (fun first e => e.id = first.id ∧ 0 ≤ e.retries ∧ 0 < e.deadline.nanos ∧
        e.deadline.nanos =
          min Duration.greatest (first.deadline.nanos + e.retries * grace.nanos))
      (calls.flatMap Call.recorded) s.events ∧
    ∀ (c : Call) (i : Nat) (e e' : Event), extendsBy grace s c = true →
      s.events[i]? = some e → (s.after c).events[i]? = some e' → e'.retries ≠ e.retries →
        e'.id = e.id ∧ e'.retries = e.retries + 1 ∧ e.WaitsLonger e' := by
  have hnothing : ∀ first ∈ ([] : List Event), 0 < first.deadline.nanos := fun _ h => nomatch h
  obtain ⟨hids, hfirsts, hscheduled⟩ :=
    scheduled_of_afterAll? distinctIds_empty hgrace hnothing .nil hrun
  rw [List.nil_append] at hfirsts hscheduled
  refine ⟨?_, fun c i e e' hallowed he he' hretried => ?_⟩
  · refine (List.forall₂_and_left _ _).2 ⟨hfirsts, hscheduled⟩ |>.imp ?_
    rintro first e ⟨hfirst, h⟩
    exact ⟨h.id, h.retried, h.deadline_pos hgrace hfirst, h.deadline⟩
  · rw [getElem?_after hids c he] at he'
    cases he'
    obtain ⟨first, hfirst, hmatch⟩ : ∃ first, 0 < first.deadline.nanos ∧
        Event.Scheduled grace first e := by
      obtain ⟨hi, rfl⟩ := List.getElem?_eq_some_iff.1 he
      have hi' : i < (calls.flatMap Call.recorded).length := hscheduled.length_eq ▸ hi
      exact ⟨_, hfirsts _ (List.getElem_mem hi'), hscheduled.get hi' hi⟩
    refine ⟨id_effectOn s e c, ?_, waitsLonger_effectOn hmatch hgrace hfirst hallowed hretried⟩
    rcases (changes_effectOn s e c).retries with hsame | ⟨hmore, -, -⟩
    · exact absurd hsame hretried
    · exact hmore

/-- Two retries with resets and claims between them, and a remark. -/
def retriedTwice : List Call :=
  [.insert (.ofSerial 0) .epoch ⟨"create:team", "team-a", .null, .ofSeconds 300⟩,
    .claim .epoch (.ofSerial 0),
    .append ⟨.ofSerial 1, .ofSerial 0, .error, "unavailable", .epoch⟩,
    .retry .epoch (.ofSerial 0) (.ofSeconds 180),
    .insert (.ofSerial 2) .epoch ⟨"update:team", "team-a", .null, .ofSeconds 600⟩,
    .claim .epoch (.ofSerial 0),
    .resetStale .epoch .epoch,
    .resetProcessing .epoch,
    .claim .epoch (.ofSerial 0),
    .retry .epoch (.ofSerial 0) (.ofSeconds 180),
    .claim .epoch (.ofSerial 0)]

theorem schedule_of_calls_of_retriedTwice :
    ∃ s, 0 ≤ (Duration.ofSeconds 180).nanos ∧
      empty.afterAll? (extendsBy (.ofSeconds 180)) retriedTwice = some s ∧
      s.events.map (fun e => (e.status, e.retries, e.deadline.seconds)) =
        [(.processing, 2, 660), (.new, 0, 600)] ∧
      List.Forall₂ (fun first e => e.id = first.id ∧ 0 ≤ e.retries ∧ 0 < e.deadline.nanos ∧
          e.deadline.nanos = min Duration.greatest
            (first.deadline.nanos + e.retries * (Duration.ofSeconds 180).nanos))
        (retriedTwice.flatMap Call.recorded) s.events ∧
      ∀ (c : Call) (i : Nat) (e e' : Event), extendsBy (.ofSeconds 180) s c = true →
        s.events[i]? = some e → (s.after c).events[i]? = some e' → e'.retries ≠ e.retries →
          e'.id = e.id ∧ e'.retries = e.retries + 1 ∧ e.WaitsLonger e' := by
  have hview : (empty.afterAll? (extendsBy (.ofSeconds 180)) retriedTwice).map
      (fun s => s.events.map fun e => (e.status, e.retries, e.deadline.seconds)) =
      some [(.processing, 2, 660), (.new, 0, 600)] := by decide +kernel
  obtain ⟨s, hs, hevents⟩ := Option.map_eq_some_iff.1 hview
  have hgrace : 0 ≤ (Duration.ofSeconds 180).nanos := by decide
  exact ⟨s, hgrace, hs, hevents, schedule_of_calls hgrace hs⟩

end Store
end EventDispatch
