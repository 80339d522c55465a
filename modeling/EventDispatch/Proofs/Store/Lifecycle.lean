import EventDispatch.Proofs.Store.Calls

/-!
# The life of an event

**Input.** Any calls of a store in any order, from the empty one on.  Recorded events
get fresh identifiers, a status may be set to any status, and both resets may come at
any time.

**Invariant.** `Event.Later` relates an event to what it is later on.  One call keeps
it (`later_effectOn`), and it is transitive, so it holds between any two stores of a
run.

**Results.** `later_of_calls`: an event keeps its place and what it is about, never
loses a retry, and stays as it is once it has ended; rows are only added at the end.
Each call changes a status only as the table of transitions allows, and adds a retry
only as the event goes back to wait.
-/

namespace EventDispatch
namespace Event

/-- The event and what it is later on. -/
structure Later (e e' : Event) : Prop where
  id : e'.id = e.id
  tag : e'.tag = e.tag
  owner : e'.owner = e.owner
  payload : e'.payload = e.payload
  created : e'.created = e.created
  retries : e.retries ≤ e'.retries
  ended : e.status.isTerminal = true → e' = e

/-- The event before and after a single change. -/
structure Changes (e e' : Event) : Prop where
  status : e'.status = e.status ∨ e.status.canBecome e'.status = true
  retries : e'.retries = e.retries ∨
    e'.retries = e.retries + 1 ∧ e.status = .processing ∧ e'.status = .pending

theorem Later.refl (e : Event) : e.Later e :=
  ⟨rfl, rfl, rfl, rfl, rfl, Int.le_refl _, fun _ => rfl⟩

theorem Later.trans {e e' e'' : Event} (h : e.Later e') (h' : e'.Later e'') : e.Later e'' where
  id := h'.id.trans h.id
  tag := h'.tag.trans h.tag
  owner := h'.owner.trans h.owner
  payload := h'.payload.trans h.payload
  created := h'.created.trans h.created
  retries := Int.le_trans h.retries h'.retries
  ended hended := by
    have hsame : e' = e := h.ended hended
    rw [← hsame] at hended
    exact (h'.ended hended).trans hsame

theorem Changes.refl (e : Event) : e.Changes e := ⟨Or.inl rfl, Or.inl rfl⟩

end Event

namespace Store

variable {s : Store} {e : Event}

theorem later_effectOn (s : Store) (e : Event) (c : Call) : e.Later (c.effectOn s e) where
  id := id_effectOn s e c
  tag := tag_effectOn s e c
  owner := owner_effectOn s e c
  payload := by cases c <;> simp only [Call.effectOn] <;> split <;> rfl
  created := created_effectOn s e c
  retries := by
    cases c with
    | insert | append => exact Int.le_refl _
    | retry clock id extension =>
      simp only [Call.effectOn]
      split
      · change e.retries ≤ e.retries + 1
        omega
      · exact Int.le_refl _
    | claim | setStatus | resetProcessing | resetStale =>
      simp only [Call.effectOn]
      split <;> exact Int.le_refl _
  ended hended := effectOn_of_isTerminal s hended c

theorem changes_effectOn (s : Store) (e : Event) (c : Call) : e.Changes (c.effectOn s e) := by
  cases c with
  | insert | append => exact .refl e
  | claim clock id =>
    simp only [Call.effectOn]
    split
    · next hgranted => exact ⟨Or.inr hgranted.2.1, Or.inl rfl⟩
    · exact .refl e
  | setStatus clock id status =>
    simp only [Call.effectOn]
    split
    · next hgranted => exact ⟨Or.inr hgranted.2, Or.inl rfl⟩
    · exact .refl e
  | retry clock id extension =>
    simp only [Call.effectOn]
    split
    · next hgranted =>
      refine ⟨Or.inr ?_, Or.inr ⟨rfl, hgranted.2, rfl⟩⟩
      rw [hgranted.2]
      rfl
    · exact .refl e
  | resetProcessing clock =>
    simp only [Call.effectOn]
    split
    · next hrun =>
      refine ⟨Or.inr ?_, Or.inl rfl⟩
      rw [hrun]
      rfl
    · exact .refl e
  | resetStale clock now =>
    simp only [Call.effectOn]
    split
    · next hexpired =>
      refine ⟨Or.inr ?_, Or.inl rfl⟩
      rw [hexpired.1]
      rfl
    · exact .refl e

/-- An event keeps its place in a call. -/
theorem getElem?_after (h : s.DistinctIds) (c : Call) {i : Nat} (he : s.events[i]? = some e) :
    (s.after c).events[i]? = some (c.effectOn s e) := by
  have hplace : i < (s.events.map (c.effectOn s)).length := by
    rw [List.length_map]
    exact (List.getElem?_eq_some_iff.1 he).1
  rw [events_after h, List.getElem?_append_left hplace, List.getElem?_map, he]
  rfl

/-- Rows are only added at the end. -/
theorem trail_prefix_after (s : Store) (c : Call) : s.trail <+: (s.after c).trail := by
  rw [trail_after]
  exact List.prefix_append s.trail c.written

/-- The store and what it is later on. -/
structure Later (s s' : Store) : Prop where
  events : ∀ (i : Nat) (e : Event), s.events[i]? = some e →
    ∃ e', s'.events[i]? = some e' ∧ e.Later e'
  trail : s.trail <+: s'.trail

theorem Later.refl (s : Store) : s.Later s := ⟨fun _ e he => ⟨e, he, .refl e⟩, List.prefix_rfl⟩

theorem Later.trans {s s' s'' : Store} (h : s.Later s') (h' : s'.Later s'') : s.Later s'' where
  events i e he := by
    obtain ⟨e', he', hlater⟩ := h.events i e he
    obtain ⟨e'', he'', hlater'⟩ := h'.events i e' he'
    exact ⟨e'', he'', hlater.trans hlater'⟩
  trail := h.trail.trans h'.trail

/-- What was stored is still there, as something later. -/
theorem Later.exists_mem {s s' : Store} (h : s.Later s') {e : Event} (he : e ∈ s.events) :
    ∃ e' ∈ s'.events, e.Later e' := by
  obtain ⟨i, hi⟩ := List.mem_iff_getElem?.1 he
  obtain ⟨e', hi', hlater⟩ := h.events i e hi
  exact ⟨e', List.mem_iff_getElem?.2 ⟨i, hi'⟩, hlater⟩

theorem later_after (h : s.DistinctIds) (c : Call) : s.Later (s.after c) :=
  ⟨fun _ e he => ⟨c.effectOn s e, getElem?_after h c he, later_effectOn s e c⟩,
    trail_prefix_after s c⟩

theorem Reached.distinctIds (h : Reached Call.isFresh s) : s.DistinctIds := by
  induction h with
  | empty => exact distinctIds_empty
  | call c _ hfresh ih => exact ih.after hfresh

/-- Calls lead to a later store, in which no two events have one identifier either. -/
theorem later_of_afterAll? {s' : Store} (h : s.DistinctIds) {calls : List Call}
    (hrun : s.afterAll? Call.isFresh calls = some s') : s.Later s' ∧ s'.DistinctIds := by
  induction calls generalizing s with
  | nil =>
    cases hrun
    exact ⟨.refl _, h⟩
  | cons c rest ih =>
    simp only [afterAll?] at hrun
    split at hrun
    · next hfresh =>
      obtain ⟨hlater, hids⟩ := ih (h.after hfresh) hrun
      exact ⟨(later_after h c).trans hlater, hids⟩
    · cases hrun

/-- Between any two stores of a run each event keeps its place and what it is about,
never loses a retry, and stays as it is once it has ended, while rows are only added at
the end.  A call changes a status only as the table of transitions allows, and adds a
retry only as the event goes back to wait. -/
theorem later_of_calls {s' : Store} {calls : List Call} (h : Reached Call.isFresh s)
    (hrun : s.afterAll? Call.isFresh calls = some s') :
    s.Later s' ∧
    ∀ (c : Call) (i : Nat) (e : Event), s'.events[i]? = some e →
      ∃ e', (s'.after c).events[i]? = some e' ∧ e.Changes e' := by
  obtain ⟨hlater, hids⟩ := later_of_afterAll? h.distinctIds hrun
  refine ⟨hlater, fun c i e he => ?_⟩
  exact ⟨c.effectOn s' e, getElem?_after hids c he, changes_effectOn s' e c⟩

/-- An event that is claimed and sent back with a retry. -/
def retriedCalls : List Call :=
  [.insert (.ofSerial 0) .epoch ⟨"create:team", "team-a", .null, .ofSeconds 300⟩,
    .claim .epoch (.ofSerial 0),
    .append ⟨.ofSerial 1, .ofSerial 0, .error, "unavailable", .epoch⟩,
    .retry .epoch (.ofSerial 0) (.ofSeconds 180)]

/-- It is claimed again, sent back by a reset, and ends; what comes then is refused. -/
def endingCalls : List Call :=
  [.claim .epoch (.ofSerial 0),
    .resetProcessing .epoch,
    .setStatus .epoch (.ofSerial 0) .completed,
    .insert (.ofSerial 2) .epoch ⟨"update:team", "team-a", .null, .ofSeconds 300⟩,
    .setStatus .epoch (.ofSerial 0) .processing,
    .retry .epoch (.ofSerial 0) (.ofSeconds 180)]

theorem later_of_calls_of_endingCalls :
    ∃ s s', Reached Call.isFresh s ∧ s.afterAll? Call.isFresh endingCalls = some s' ∧
      s.events.map (fun e => (e.status, e.retries)) = [(.pending, 1)] ∧
      s'.events.map (fun e => (e.status, e.retries)) = [(.completed, 1), (.new, 0)] ∧
      s.Later s' ∧
      ∀ (c : Call) (i : Nat) (e : Event), s'.events[i]? = some e →
        ∃ e', (s'.after c).events[i]? = some e' ∧ e.Changes e' := by
  have hstart : (empty.afterAll? Call.isFresh retriedCalls).map
      (fun s => (s.events.map fun e => (e.status, e.retries),
        (s.afterAll? Call.isFresh endingCalls).map fun s' =>
          s'.events.map fun e => (e.status, e.retries))) =
      some ([(.pending, 1)], some [(.completed, 1), (.new, 0)]) := by decide +kernel
  obtain ⟨s, hs, hview⟩ := Option.map_eq_some_iff.1 hstart
  obtain ⟨hbefore, hend⟩ := Prod.mk.inj hview
  obtain ⟨s', hs', hafter⟩ := Option.map_eq_some_iff.1 hend
  have hreached : Reached Call.isFresh s := Reached.empty.afterAll? hs
  exact ⟨s, s', hreached, hs', hbefore, hafter, later_of_calls hreached hs'⟩

end Store
end EventDispatch
