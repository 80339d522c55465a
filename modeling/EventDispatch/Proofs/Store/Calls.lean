import EventDispatch.Store.Access
import Mathlib.Data.List.Pairwise

/-!
# Calls of the store

This module says once what each call does to the events of a store, and derives
from that what every call keeps.

**Input.** A store in which no two events have one identifier, and a call.

**Results.** The events after a call are the events before it, each changed as
`Call.effectOn` says, followed by those that the call records (`events_after`).
No call changes what an event is about or its place, and none touches an event
that has ended.  A call behind `Access` either does the same or leaves the store
as it is.
-/

namespace EventDispatch
namespace Store

/-- No two events have one identifier. -/
def DistinctIds (s : Store) : Prop := s.events.Pairwise fun a b => a.id ≠ b.id

theorem distinctIds_empty : empty.DistinctIds := List.Pairwise.nil

theorem DistinctIds.eq_of_id_eq {s : Store} (h : s.DistinctIds) {a b : Event}
    (ha : a ∈ s.events) (hb : b ∈ s.events) (hid : a.id = b.id) : a = b := by
  by_contra hne
  have : Std.Symm fun a b : Event => a.id ≠ b.id := ⟨fun _ _ hab => Ne.symm hab⟩
  exact h.forall ha hb hne hid

theorem find?_eq_some_of_mem {s : Store} (h : s.DistinctIds) {e : Event} (he : e ∈ s.events) :
    s.find? e.id = some e := by
  obtain ⟨x, hx⟩ : ∃ x, s.find? e.id = some x :=
    Option.isSome_iff_exists.1 (List.find?_isSome.2 ⟨e, he, by simp⟩)
  have hid : x.id = e.id := by simpa using List.find?_some hx
  have hmem : x ∈ s.events := List.mem_of_find?_eq_some hx
  rw [hx, h.eq_of_id_eq hmem he hid]

theorem find?_eq_none_iff {s : Store} {id : Uuid} :
    s.find? id = none ↔ ∀ e ∈ s.events, e.id ≠ id := by
  simp [find?]

/-- A call that may change the store. -/
inductive Call where
  /-- Record an event. -/
  | insert (id : Uuid) (now : Instant) (e : NewEvent)
  /-- Start to run an event. -/
  | claim (clock : Instant) (id : Uuid)
  /-- Change a status. -/
  | setStatus (clock : Instant) (id : Uuid) (status : Status)
  /-- Send an event back to wait, with one more retry. -/
  | retry (clock : Instant) (id : Uuid) (extension : Duration)
  /-- Add a row. -/
  | append (row : LogRow)
  /-- Send every event being run back to wait. -/
  | resetProcessing (clock : Instant)
  /-- Send the expired events being run back to wait. -/
  | resetStale (clock now : Instant)

/-- The store after a call; a call that is refused leaves it as it is. -/
def after (s : Store) : Call → Store
  | .insert id now e =>
    match e.validate with
    | .ok () => s.insert id now e
    | .error _ => s
  | .claim clock id => (s.claim? clock id).getD s
  | .setStatus clock id status => (s.settle? clock id status).getD s
  | .retry clock id extension => (s.retry? clock id extension).getD s
  | .append row => s.append row
  | .resetProcessing clock => (s.resetProcessing clock).2
  | .resetStale clock now => (s.resetStale clock now).2

/-- What a call makes of one event of the store. -/
def Call.effectOn (s : Store) (e : Event) : Call → Event
  | .insert _ _ _ => e
  | .claim clock id =>
    if e.id = id ∧ e.status.canBecome .processing = true ∧ s.isBusy id e.key = false then
      { e with status := .processing, updated := clock }
    else e
  | .setStatus clock id status =>
    if e.id = id ∧ e.status.canBecome status = true then
      { e with status := status, updated := clock }
    else e
  | .retry clock id extension =>
    if e.id = id ∧ e.status = .processing then
      { e with
        status := .pending
        retries := e.retries + 1
        deadline := e.deadline.saturatingAdd extension
        updated := clock }
    else e
  | .append _ => e
  | .resetProcessing clock =>
    if e.status = .processing then { e with status := .pending, updated := clock } else e
  | .resetStale clock now =>
    if e.status = .processing ∧ hasExpired e now = true then
      { e with status := .pending, updated := clock }
    else e

/-- The events that a call records. -/
def Call.recorded : Call → List Event
  | .insert id now e =>
    match e.validate with
    | .ok () => [e.recorded id now]
    | .error _ => []
  | _ => []

section Effect

variable (s : Store) (e : Event) (c : Call)

@[simp] theorem id_effectOn : (c.effectOn s e).id = e.id := by
  cases c <;> simp only [Call.effectOn] <;> split <;> rfl

@[simp] theorem tag_effectOn : (c.effectOn s e).tag = e.tag := by
  cases c <;> simp only [Call.effectOn] <;> split <;> rfl

@[simp] theorem owner_effectOn : (c.effectOn s e).owner = e.owner := by
  cases c <;> simp only [Call.effectOn] <;> split <;> rfl

@[simp] theorem created_effectOn : (c.effectOn s e).created = e.created := by
  cases c <;> simp only [Call.effectOn] <;> split <;> rfl

@[simp] theorem key_effectOn : (c.effectOn s e).key = e.key := by
  simp only [Event.key, Event.resource, owner_effectOn, tag_effectOn]

end Effect

/-- A change that is granted to the event of an identifier is granted to it alone. -/
theorem events_revise_of_find? {s : Store} (h : s.DistinctIds) {id : Uuid} {target : Event}
    (hf : s.find? id = some target) {p : Event → Prop} [DecidablePred p]
    (hg : p target) (change : Event → Event) :
    (s.revise id change).events =
      s.events.map fun e => if e.id = id ∧ p e then change e else e := by
  have hid : target.id = id := by simpa using List.find?_some hf
  have hmem : target ∈ s.events := List.mem_of_find?_eq_some hf
  refine List.map_congr_left fun e he => ?_
  by_cases heq : e.id = id
  · have : e = target := h.eq_of_id_eq he hmem (heq.trans hid.symm)
    simp [this, hid, hg]
  · simp [heq]

/-- A change that is granted to no event of an identifier changes nothing. -/
theorem events_eq_map_of_refused {s : Store} {id : Uuid} {p : Event → Prop}
    [DecidablePred p] (h : ∀ e ∈ s.events, e.id = id → ¬ p e)
    (change : Event → Event) :
    s.events = s.events.map fun e => if e.id = id ∧ p e then change e else e := by
  refine (List.map_id' s.events).symm.trans (List.map_congr_left fun e he => ?_)
  by_cases heq : e.id = id
  · simp [h e he heq]
  · simp [heq]

/-- An event with the identifier of the one that was found is the one that was found. -/
theorem eq_of_find? {s : Store} (h : s.DistinctIds) {e target : Event}
    (hf : s.find? e.id = some target) (he : e ∈ s.events) : e = target := by
  rw [find?_eq_some_of_mem h he] at hf
  exact Option.some.inj hf

theorem eq_revise_of_claim? {s s' : Store} {clock : Instant} {id : Uuid}
    (h : s.claim? clock id = some s') :
    s' = s.revise id fun e => { e with status := .processing, updated := clock } := by
  unfold claim? at h
  split at h
  · cases h
  · split at h
    · exact (Option.some.inj h).symm
    · cases h

/-- What a claim is granted for. -/
theorem target_of_claim? {s s' : Store} {clock : Instant} {id : Uuid}
    (h : s.claim? clock id = some s') :
    ∃ target, s.find? id = some target ∧
      (target.status = .new ∨ target.status = .pending) ∧ s.isBusy id target.key = false := by
  unfold claim? at h
  split at h
  · cases h
  · next target hfind =>
    split at h
    · next hgranted =>
      refine ⟨target, hfind, ?_⟩
      simpa [Status.canBecome, Status.sources] using hgranted
    · cases h

theorem waits_of_claim? {s s' : Store} (h : s.DistinctIds) {clock : Instant} {e : Event}
    (he : e ∈ s.events) (hclaim : s.claim? clock e.id = some s') :
    e.status = .new ∨ e.status = .pending := by
  obtain ⟨target, hfind, hwaits, -⟩ := target_of_claim? hclaim
  rw [eq_of_find? h hfind he]
  exact hwaits

theorem events_claim {s : Store} (h : s.DistinctIds) (clock : Instant) (id : Uuid) :
    ((s.claim? clock id).getD s).events =
      s.events.map fun e => (Call.claim clock id).effectOn s e := by
  simp only [Call.effectOn]
  unfold claim?
  split
  · next hf =>
    exact events_eq_map_of_refused (fun e he heq => absurd heq (find?_eq_none_iff.1 hf e he)) _
  · next target hf =>
    split
    · next hok =>
      refine events_revise_of_find? h hf (p := fun e =>
        e.status.canBecome .processing = true ∧ s.isBusy id e.key = false) ?_ _
      simpa using hok
    · next hok =>
      refine events_eq_map_of_refused (fun e he heq hgranted => hok ?_) _
      subst heq
      rw [← eq_of_find? h hf he]
      simpa using hgranted

theorem events_setStatus {s : Store} (h : s.DistinctIds) (clock : Instant) (id : Uuid)
    (status : Status) :
    ((s.settle? clock id status).getD s).events =
      s.events.map fun e => (Call.setStatus clock id status).effectOn s e := by
  simp only [Call.effectOn]
  unfold settle?
  split
  · next hf =>
    exact events_eq_map_of_refused (fun e he heq => absurd heq (find?_eq_none_iff.1 hf e he)) _
  · next target hf =>
    split
    · next hok =>
      exact events_revise_of_find? h hf (p := fun e => e.status.canBecome status = true)
        hok _
    · next hok =>
      refine events_eq_map_of_refused (fun e he heq hgranted => hok ?_) _
      subst heq
      rwa [← eq_of_find? h hf he]

theorem events_retry {s : Store} (h : s.DistinctIds) (clock : Instant) (id : Uuid)
    (extension : Duration) :
    ((s.retry? clock id extension).getD s).events =
      s.events.map fun e => (Call.retry clock id extension).effectOn s e := by
  simp only [Call.effectOn]
  unfold retry?
  split
  · next hf =>
    exact events_eq_map_of_refused (fun e he heq => absurd heq (find?_eq_none_iff.1 hf e he)) _
  · next target hf =>
    split
    · next hok =>
      exact events_revise_of_find? h hf (p := fun e => e.status = .processing) hok _
    · next hok =>
      refine events_eq_map_of_refused (fun e he heq hgranted => hok ?_) _
      subst heq
      rwa [← eq_of_find? h hf he]

/-- What a call does to the events of a store. -/
theorem events_after {s : Store} (h : s.DistinctIds) (c : Call) :
    (s.after c).events = s.events.map (c.effectOn s) ++ c.recorded := by
  cases c with
  | insert id now e =>
    simp only [after, Call.effectOn, Call.recorded, List.map_id']
    split <;> simp [insert]
  | claim clock id => simpa [after, Call.recorded] using events_claim h clock id
  | setStatus clock id status =>
    simpa [after, Call.recorded] using events_setStatus h clock id status
  | retry clock id extension => simpa [after, Call.recorded] using events_retry h clock id extension
  | append row => simp [after, Call.effectOn, Call.recorded]
  | resetProcessing clock =>
    simp [after, Call.effectOn, Call.recorded, resetProcessing, resetWhere]
  | resetStale clock now =>
    simp [after, Call.effectOn, Call.recorded, resetStale, resetWhere]

/-- The rows that a call adds. -/
def Call.written : Call → List LogRow
  | .append row => [row]
  | _ => []

theorem trail_after (s : Store) (c : Call) : (s.after c).trail = s.trail ++ c.written := by
  cases c with
  | append row => rfl
  | insert id now e =>
    simp only [after, Call.written, List.append_nil]
    split <;> rfl
  | claim clock id =>
    simp only [after, claim?, Call.written, List.append_nil]
    split
    · rfl
    · split <;> rfl
  | setStatus clock id status =>
    simp only [after, settle?, Call.written, List.append_nil]
    split
    · rfl
    · split <;> rfl
  | retry clock id extension =>
    simp only [after, retry?, Call.written, List.append_nil]
    split
    · rfl
    · split <;> rfl
  | resetProcessing | resetStale => exact (List.append_nil s.trail).symm

/-! ## What every call keeps -/

/-- The identifier of a recorded event is not in the store yet. -/
def Call.isFresh (s : Store) : Call → Bool
  | .insert id _ _ => (s.find? id).isNone
  | _ => true

/-- A status is only set to one in which an event has ended. -/
def Call.endsOnly : Call → Bool
  | .setStatus _ _ status => status.isTerminal
  | _ => true

theorem Call.eq_insert_of_mem_recorded {c : Call} {e : Event} (he : e ∈ c.recorded) :
    ∃ id now request, c = .insert id now request ∧ e = request.recorded id now ∧
      request.validate = .ok () := by
  cases c with
  | insert id now request =>
    simp only [recorded] at he
    split at he
    · next hvalid => exact ⟨id, now, request, rfl, List.mem_singleton.1 he, hvalid⟩
    · cases he
  | _ => cases he

theorem Call.status_of_mem_recorded {c : Call} {e : Event} (he : e ∈ c.recorded) :
    e.status = .new := by
  obtain ⟨id, now, request, -, rfl, -⟩ := eq_insert_of_mem_recorded he
  rfl

theorem Call.deadline_pos_of_mem_recorded {c : Call} {e : Event} (he : e ∈ c.recorded) :
    0 < e.deadline.nanos := by
  obtain ⟨id, now, request, -, rfl, hvalid⟩ := eq_insert_of_mem_recorded he
  unfold NewEvent.validate at hvalid
  split at hvalid
  · cases hvalid
  · split at hvalid
    · cases hvalid
    · split at hvalid
      · cases hvalid
      · next hdeadline => exact Int.not_le.1 fun hle => hdeadline (Or.inl hle)

theorem Call.id_ne_of_mem_recorded {s : Store} {c : Call} (hfresh : c.isFresh s = true)
    {e : Event} (he : e ∈ c.recorded) {x : Event} (hx : x ∈ s.events) : x.id ≠ e.id := by
  obtain ⟨id, now, request, rfl, rfl, -⟩ := eq_insert_of_mem_recorded he
  exact find?_eq_none_iff.1 (Option.isNone_iff_eq_none.1 hfresh) x hx

/-- A relation between earlier and later events is kept by a call if it is kept
among the events that were there, and holds towards those that are recorded. -/
theorem pairwise_after {s : Store} (h : s.DistinctIds) {c : Call} {R S : Event → Event → Prop}
    (hold : s.events.Pairwise R)
    (hkept : ∀ a ∈ s.events, ∀ b ∈ s.events, a.id ≠ b.id → R a b →
      S (c.effectOn s a) (c.effectOn s b))
    (hnew : ∀ a ∈ s.events, ∀ b ∈ c.recorded, S (c.effectOn s a) b) :
    (s.after c).events.Pairwise S := by
  rw [events_after h, List.pairwise_append, List.pairwise_map]
  refine ⟨?_, ?_, ?_⟩
  · exact (List.Pairwise.and h hold).imp_of_mem fun ha hb hab => hkept _ ha _ hb hab.1 hab.2
  · cases c with
    | insert id now e =>
      simp only [Call.recorded]
      split <;> simp
    | _ => exact List.Pairwise.nil
  · intro a ha b hb
    obtain ⟨x, hx, rfl⟩ := List.mem_map.1 ha
    exact hnew x hx b hb

theorem DistinctIds.after {s : Store} (h : s.DistinctIds) {c : Call}
    (hfresh : c.isFresh s = true) : (s.after c).DistinctIds := by
  refine pairwise_after h h ?_ ?_
  · intro a _ b _ hab _
    simpa using hab
  · intro a ha b hb
    simpa using Call.id_ne_of_mem_recorded hfresh hb ha

theorem mem_after {s : Store} (h : s.DistinctIds) {c : Call} {e : Event} :
    e ∈ (s.after c).events ↔ (∃ x ∈ s.events, c.effectOn s x = e) ∨ e ∈ c.recorded := by
  rw [events_after h, List.mem_append, List.mem_map]

/-- An event that has ended is never touched again. -/
theorem effectOn_of_isTerminal (s : Store) {e : Event} (he : e.status.isTerminal = true)
    (c : Call) : c.effectOn s e = e := by
  have hnot : ∀ t, e.status.canBecome t = false := Status.canBecome_eq_false_of_isTerminal he
  have hprocessing : e.status ≠ .processing := fun heq => by simp [heq, Status.isTerminal] at he
  cases c <;> simp [Call.effectOn, hnot, hprocessing]

/-- A new event changes its status only when it is claimed. -/
theorem claim_of_leaves_new {s : Store} {e : Event} {c : Call} (hends : c.endsOnly = true)
    (hnew : e.status = .new) (hleft : (c.effectOn s e).status ≠ .new) :
    ∃ clock, c = .claim clock e.id := by
  cases c with
  | claim clock id =>
    by_cases hid : e.id = id
    · exact ⟨clock, by rw [hid]⟩
    · exact absurd hnew (by simpa [Call.effectOn, hid] using hleft)
  | setStatus clock id status =>
    have hnot : e.status.canBecome status = false := by
      rw [hnew]
      cases status <;> first | rfl | cases hends
    exact absurd hnew (by simpa [Call.effectOn, hnot] using hleft)
  | insert | append => exact absurd hnew hleft
  | retry | resetProcessing | resetStale => simp [Call.effectOn, hnew] at hleft

/-- Only a claim, or a move to `processing` asked for, starts to run an event. -/
theorem processing_of_effectOn {s : Store} {e : Event} {c : Call}
    (h : (c.effectOn s e).status = .processing) :
    e.status = .processing ∨
      (∃ clock, c = .claim clock e.id) ∧ s.isBusy e.id e.key = false ∨
      ∃ clock, c = .setStatus clock e.id .processing := by
  cases c with
  | claim clock id =>
    simp only [Call.effectOn] at h
    split at h
    · next hok =>
      obtain ⟨rfl, -, hbusy⟩ := hok
      exact Or.inr (Or.inl ⟨⟨clock, rfl⟩, hbusy⟩)
    · exact Or.inl h
  | setStatus clock id status =>
    simp only [Call.effectOn] at h
    split at h
    · next hok =>
      obtain ⟨rfl, -⟩ := hok
      simp only at h
      subst h
      exact Or.inr (Or.inr ⟨clock, rfl⟩)
    · exact Or.inl h
  | insert | append => exact Or.inl h
  | retry | resetProcessing | resetStale =>
    simp only [Call.effectOn] at h
    split at h
    · cases h
    · exact Or.inl h

/-! ## Runs of calls -/

/-- The stores that calls lead to from the empty one, each call allowed where it is made. -/
inductive Reached (allowed : Store → Call → Bool) : Store → Prop
  | empty : Reached allowed .empty
  | call {s : Store} (c : Call) :
      Reached allowed s → allowed s c = true → Reached allowed (s.after c)

/-- Makes calls one after the other, as long as each is allowed. -/
def afterAll? (allowed : Store → Call → Bool) : Store → List Call → Option Store
  | s, [] => some s
  | s, c :: rest => if allowed s c then afterAll? allowed (s.after c) rest else none

theorem Reached.afterAll? {allowed : Store → Call → Bool} {s s' : Store}
    (h : Reached allowed s) {calls : List Call}
    (hrun : s.afterAll? allowed calls = some s') : Reached allowed s' := by
  induction calls generalizing s with
  | nil =>
    cases hrun
    exact h
  | cons c rest ih =>
    simp only [Store.afterAll?] at hrun
    split at hrun
    · next hc => exact ih (.call c h hc) hrun
    · cases hrun

end Store

/-! ## Calls behind an access -/

namespace Access

variable {a : Access} {s s' : Store}

/-- What follows a check that does not fail is what the whole answers. -/
theorem eq_ok_of_bind {α : Type} {check : Except StoreError Unit} {k : Except StoreError α}
    {x : α} (h : (check >>= fun _ => k) = .ok x) : k = .ok x := by
  cases check with
  | error cause => cases h
  | ok u => exact h

theorem store_of_insert {id : Uuid} {now : Instant} {e : NewEvent}
    (h : a.insert s id now e = .ok s') : s' = s.after (.insert id now e) := by
  have hmatch := eq_ok_of_bind h
  simp only [Store.after]
  split at hmatch
  · cases hmatch
  · next hvalid =>
    rw [hvalid]
    exact (Except.ok.inj (eq_ok_of_bind hmatch)).symm

theorem store_of_appendLog {row : LogRow} (h : a.appendLog s row = .ok s') :
    s' = s.after (.append row) :=
  (Except.ok.inj (eq_ok_of_bind h)).symm

theorem answer_snd (s : Store) (granted : Option Store) :
    (answer s granted).2 = granted.getD s := by
  cases granted <;> rfl

theorem store_of_retry {clock : Instant} {id : Uuid} {extension : Duration} {granted : Bool}
    (h : a.retry s clock id extension = .ok (granted, s')) :
    s' = s.after (.retry clock id extension) := by
  have hanswer := Except.ok.inj (eq_ok_of_bind h)
  rw [Store.after, ← answer_snd, hanswer]

theorem store_of_setStatus {clock : Instant} {id : Uuid} {status : Status} {granted : Bool}
    (h : a.setStatus s clock id status = .ok (granted, s')) :
    s' = s ∨ s' = s.after (.setStatus clock id status) := by
  have hif := eq_ok_of_bind h
  split at hif
  · exact Or.inl (congrArg Prod.snd (Except.ok.inj hif)).symm
  · have hanswer := Except.ok.inj (eq_ok_of_bind hif)
    right
    rw [Store.after, ← answer_snd, hanswer]

theorem store_of_claim_false {clock : Instant} {id : Uuid}
    (h : a.claim s clock id = .ok (false, s')) : s' = s := by
  have hif := eq_ok_of_bind h
  split at hif
  · exact (congrArg Prod.snd (Except.ok.inj hif)).symm
  · have hanswer := Except.ok.inj (eq_ok_of_bind hif)
    cases hclaim : s.claim? clock id with
    | none =>
      rw [hclaim] at hanswer
      exact (congrArg Prod.snd hanswer).symm
    | some t =>
      rw [hclaim] at hanswer
      cases hanswer

theorem claim?_of_claim_true {clock : Instant} {id : Uuid}
    (h : a.claim s clock id = .ok (true, s')) : s.claim? clock id = some s' := by
  have hif := eq_ok_of_bind h
  split at hif
  · cases hif
  · have hanswer := Except.ok.inj (eq_ok_of_bind hif)
    cases hclaim : s.claim? clock id with
    | none =>
      rw [hclaim] at hanswer
      cases hanswer
    | some t =>
      rw [hclaim] at hanswer
      exact congrArg some (congrArg Prod.snd hanswer)

theorem store_of_resetProcessing {clock : Instant} {count : Nat}
    (h : a.resetProcessing s clock = .ok (count, s')) : s' = s.after (.resetProcessing clock) :=
  (congrArg Prod.snd (Except.ok.inj (eq_ok_of_bind h))).symm

theorem store_of_resetStale {clock now : Instant} {count : Nat}
    (h : a.resetStale s clock now = .ok (count, s')) : s' = s.after (.resetStale clock now) :=
  (congrArg Prod.snd (Except.ok.inj (eq_ok_of_bind h))).symm

/-- Within reach, what is granted is done. -/
theorem retry_unhindered (s : Store) (clock : Instant) (id : Uuid) (extension : Duration) :
    unhindered.retry s clock id extension = .ok (answer s (s.retry? clock id extension)) := rfl

theorem setStatus_unhindered (s : Store) (clock : Instant) (id : Uuid) (status : Status)
    (h : status.isTerminal = true) :
    unhindered.setStatus s clock id status = .ok (answer s (s.settle? clock id status)) := by
  cases status with
  | completed | failed => rfl
  | new | processing | pending => cases h

theorem insert_unhindered (s : Store) (id : Uuid) (now : Instant) (e : NewEvent) :
    unhindered.insert s id now e =
      match e.validate with
      | .error cause => .error (.invalidRecord cause)
      | .ok () => .ok (s.insert id now e) := by
  unfold insert
  cases e.validate <;> rfl

theorem logsForOwner_unhindered (s : Store) (owner : String) (limit : Int) :
    unhindered.logsForOwner s owner limit = .ok (s.trailsOf owner limit) := rfl

theorem events_of_listDispatchable {filter : DispatchFilter} {now : Instant}
    {events : List Event} (h : a.listDispatchable s filter now = .ok events) :
    events = s.dispatchable filter now :=
  (Except.ok.inj (eq_ok_of_bind h)).symm

end Access
end EventDispatch
