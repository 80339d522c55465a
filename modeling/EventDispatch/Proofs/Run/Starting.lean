import EventDispatch.Dispatch.Cycle
import EventDispatch.Proofs.Store.Selecting
import Mathlib

/-!
# What a cycle starts

**Input.** A leader whose store is within reach, a set of paused classes, the time of
the cycle, and the time of day.

**Algorithm.** A cycle lists events on the store as it is, and then claims them one
after the other, so that each claim meets a store that the claims before it have
changed.

**Invariant.** `Store.Clear`: the events still to be claimed stand in the store as they
were listed, and no event that is being run has the key of one of them with a
registered tag.  A claim of the first one keeps this for the rest, since no two of them
share a key.

**Results.** `cycle_starts_listed`: every listed event of a registered tag is claimed,
and gets one worker, in order; nothing else changes but the journal.  A second cycle
right after it starts nothing, as whatever it could list is blocked by what the first
one claimed or left behind.
-/

namespace EventDispatch

/-- The events of registered tags. -/
def Registry.served (r : Registry) (events : List Event) : List Event :=
  events.filter fun e => r.contains e.tag

/-- The workers of claimed events, numbered from `n` on. -/
def Registry.crew (r : Registry) (n : Nat) : List Event → List Worker
  | [] => []
  | e :: rest =>
    match r.find? e.tag with
    | none => r.crew n rest
    | some entry =>
      .spawned n { e with status := .processing } entry.handler :: r.crew (n + 1) rest

section Crew

variable {r : Registry} {e : Event} {rest : List Event} {entry : Entry}

theorem Registry.served_cons_of_none (h : r.find? e.tag = none) :
    r.served (e :: rest) = r.served rest := by
  simp [served, contains, h]

theorem Registry.served_cons_of_some (h : r.find? e.tag = some entry) :
    r.served (e :: rest) = e :: r.served rest := by
  simp [served, contains, h]

/-- Each worker has its event as it was listed, but for the status. -/
theorem Registry.events_crew (r : Registry) (n : Nat) (events : List Event) :
    (r.crew n events).map Worker.event =
      (r.served events).map fun e => { e with status := .processing } := by
  induction events generalizing n with
  | nil => rfl
  | cons e rest ih =>
    cases h : r.find? e.tag with
    | none => simp [crew, h, served_cons_of_none h, ih n]
    | some entry => simp [crew, h, served_cons_of_some h, ih (n + 1), Worker.spawned]

/-- Each worker is yet to begin, with the handler of its tag. -/
theorem Registry.spawned_of_mem_crew {w : Worker} {n : Nat} {events : List Event}
    (h : w ∈ r.crew n events) :
    ∃ entry, r.find? w.event.tag = some entry ∧ w = .spawned w.serial w.event entry.handler := by
  induction events generalizing n with
  | nil => cases h
  | cons e rest ih =>
    cases hentry : r.find? e.tag with
    | none =>
      simp only [crew, hentry] at h
      exact ih h
    | some entry =>
      simp only [crew, hentry] at h
      rcases List.mem_cons.1 h with rfl | hrest
      · exact ⟨entry, hentry, rfl⟩
      · exact ih hrest

theorem Registry.crew_eq_nil {events : List Event} (h : r.served events = []) (n : Nat) :
    r.crew n events = [] := by
  have hevents := r.events_crew n events
  rw [h] at hevents
  exact List.map_eq_nil_iff.1 hevents

end Crew

namespace Store

/-- The store once these events are claimed. -/
def claimed (s : Store) (clock : Instant) (events : List Event) : Store :=
  { s with
    events := s.events.map fun x =>
      if x.id ∈ events.map Event.id then { x with status := .processing, updated := clock }
      else x }

section Claimed

variable {s : Store} {clock : Instant} {events : List Event} {x : Event}

theorem claimed_nil (s : Store) (clock : Instant) : s.claimed clock [] = s := by
  simp [claimed]

/-- To claim one event and then others is to claim them all. -/
theorem claimed_revise (s : Store) (clock : Instant) (e : Event) (rest : List Event) :
    (s.revise e.id fun x => { x with status := .processing, updated := clock }).claimed clock
      rest = s.claimed clock (e :: rest) := by
  simp only [claimed, revise, List.map_map, Store.mk.injEq, and_true]
  refine List.map_congr_left fun x _ => ?_
  by_cases hid : x.id = e.id
  · simp [hid]
  · simp [hid]

theorem mem_claimed_of_not_mem (hx : x ∈ s.events) (hid : x.id ∉ events.map Event.id) :
    x ∈ (s.claimed clock events).events :=
  List.mem_map.2 ⟨x, hx, if_neg hid⟩

theorem mem_claimed_of_mem (hx : x ∈ s.events) (hid : x.id ∈ events.map Event.id) :
    ({ x with status := .processing, updated := clock } : Event) ∈
      (s.claimed clock events).events :=
  List.mem_map.2 ⟨x, hx, if_pos hid⟩

/-- What is not being run then was not claimed, and is as it was. -/
theorem mem_of_mem_claimed (hx : x ∈ (s.claimed clock events).events)
    (hstatus : x.status ≠ .processing) : x ∈ s.events ∧ x.id ∉ events.map Event.id := by
  obtain ⟨y, hy, heq⟩ := List.mem_map.1 hx
  split at heq
  · exact absurd (heq ▸ rfl) hstatus
  · next hid =>
    subst heq
    exact ⟨hy, hid⟩

theorem DistinctIds.claimed (h : s.DistinctIds) (clock : Instant) (events : List Event) :
    (s.claimed clock events).DistinctIds := by
  refine List.pairwise_map.2 (h.imp fun {a b} hab => ?_)
  split <;> split <;> exact hab

end Claimed

/-! ## The claims of one cycle -/

/-- The listed events stand in the store as they were listed, and no event that is
being run is in the way of one of them. -/
structure Clear (r : Registry) (listed : List Event) (s : Store) : Prop where
  ids : s.DistinctIds
  stored : ∀ e ∈ listed, e ∈ s.events ∧ e.status.canBecome .processing = true
  once : listed.Pairwise fun a b => a.id ≠ b.id
  apart : listed.Pairwise fun a b =>
    r.contains a.tag = true → r.contains b.tag = true → a.key ≠ b.key
  idle : ∀ e ∈ listed, r.contains e.tag = true →
    ∀ x ∈ s.events, x.status = .processing → x.key ≠ e.key

theorem clear_dispatchable {s : Store} (h : s.DistinctIds) (r : Registry)
    (paused : List EventClass) (now : Instant) :
    s.Clear r (s.dispatchable (r.filterFor paused) now) where
  ids := h
  stored e he := by
    obtain ⟨hmem, ⟨hpending, -⟩ | hnew⟩ := mem_of_mem_dispatchable he
    · exact ⟨hmem, by rw [hpending]; rfl⟩
    · exact ⟨hmem, by rw [hnew]; rfl⟩
  once := pairwise_id_dispatchable h _ _
  apart := by
    refine (Selection.pairwise_key_take _ _ _ _).imp fun {a b} hab ha hb => ?_
    rw [← r.isKnown_filterFor paused] at ha hb
    exact hab ha hb
  idle e he hknown x hx hrun := by
    rw [← r.isKnown_filterFor paused] at hknown
    exact key_ne_of_processing he hknown hx hrun

namespace Clear

variable {r : Registry} {s : Store} {e : Event} {rest : List Event}

theorem tail (h : s.Clear r (e :: rest)) : s.Clear r rest where
  ids := h.ids
  stored x hx := h.stored x (List.mem_cons_of_mem e hx)
  once := h.once.tail
  apart := h.apart.tail
  idle x hx := h.idle x (List.mem_cons_of_mem e hx)

/-- The claim of the first listed event is granted. -/
theorem claim?_eq_some (h : s.Clear r (e :: rest)) (hknown : r.contains e.tag = true)
    (clock : Instant) :
    s.claim? clock e.id =
      some (s.revise e.id fun x => { x with status := .processing, updated := clock }) := by
  obtain ⟨hmem, hready⟩ := h.stored e List.mem_cons_self
  have hfree : s.isBusy e.id e.key = false := by
    simp only [isBusy, List.any_eq_false, Bool.and_eq_true, decide_eq_true_eq]
    rintro x hx ⟨⟨-, hrun⟩, hkey⟩
    exact h.idle e List.mem_cons_self hknown x hx hrun hkey
  simp [claim?, find?_eq_some_of_mem h.ids hmem, hready, hfree]

/-- Once the first listed event is claimed, nothing is in the way of the others. -/
theorem revise (h : s.Clear r (e :: rest)) (hknown : r.contains e.tag = true)
    (clock : Instant) :
    (s.revise e.id fun x => { x with status := .processing, updated := clock }).Clear r
      rest where
  ids := by
    refine List.pairwise_map.2 (h.ids.imp fun {a b} hab => ?_)
    split <;> split <;> exact hab
  stored x hx := by
    obtain ⟨hmem, hready⟩ := h.stored x (List.mem_cons_of_mem e hx)
    have hother : x.id ≠ e.id := Ne.symm (List.rel_of_pairwise_cons h.once hx)
    exact ⟨List.mem_map.2 ⟨x, hmem, if_neg hother⟩, hready⟩
  once := h.once.tail
  apart := h.apart.tail
  idle x hx hxknown y hy hrun := by
    obtain ⟨z, hz, rfl⟩ := List.mem_map.1 hy
    by_cases hid : z.id = e.id
    · -- The event just claimed has a key of its own.
      have heq : z = e := h.ids.eq_of_id_eq hz (h.stored e List.mem_cons_self).1 hid
      rw [if_pos hid, heq]
      exact List.rel_of_pairwise_cons h.apart hx hknown hxknown
    · rw [if_neg hid] at hrun ⊢
      exact h.idle x (List.mem_cons_of_mem e hx) hxknown z hz hrun

end Clear

/-- Once the listed events of registered tags are claimed, no such event is listed
again. -/
theorem served_dispatchable_claimed (s : Store) (r : Registry)
    (paused : List EventClass) (clock now : Instant) :
    r.served ((s.claimed clock
      (r.served (s.dispatchable (r.filterFor paused) now))).dispatchable
        (r.filterFor paused) now) = [] := by
  generalize hlisted : s.dispatchable (r.filterFor paused) now = listed
  refine List.filter_eq_nil_iff.2 fun y hy hyknown => ?_
  rw [← r.isKnown_filterFor paused] at hyknown
  obtain ⟨hmem, hready⟩ := mem_of_mem_dispatchable hy
  have hstatus : y.status ≠ .processing := by
    rcases hready with ⟨hpending, -⟩ | hnew
    · simp [hpending]
    · simp [hnew]
  obtain ⟨hyevents, hyid⟩ := mem_of_mem_claimed hmem hstatus
  have hunpaused := Selection.isPaused_eq_false_of_mem_take hy
  -- Whatever is being run then keeps an event of its key from being listed.
  have hrunning : ∀ x ∈ s.events,
      x.status = .processing ∨ x.id ∈ (r.served listed).map Event.id → x.key ≠ y.key := by
    intro x hx hrun
    by_cases hid : x.id ∈ (r.served listed).map Event.id
    · have hother := key_ne_of_processing hy hyknown (mem_claimed_of_mem hx hid) rfl
      exact hother
    · exact key_ne_of_processing hy hyknown (mem_claimed_of_not_mem hx hid)
        (hrun.resolve_right hid)
  have hclaimed : ∀ x ∈ listed, r.contains x.tag = true →
      x ∈ s.events ∧ x.id ∈ (r.served listed).map Event.id := by
    intro x hx hxknown
    refine ⟨(mem_of_mem_dispatchable (hlisted ▸ hx)).1, ?_⟩
    exact List.mem_map_of_mem (List.mem_filter.2 ⟨hx, hxknown⟩)
  rcases listed_or_blocked hyevents hready hunpaused hyknown with
    hagain | ⟨x, hx, hrun, hkey⟩ | ⟨x, hx, hxknown, hkey⟩ | ⟨hnew, x, hx, hwaits, hxknown, hkey⟩
  · rw [r.isKnown_filterFor paused] at hyknown
    exact hyid (hclaimed y (hlisted ▸ hagain) hyknown).2
  · exact hrunning x hx (Or.inl hrun) hkey
  · rw [r.isKnown_filterFor paused] at hxknown
    obtain ⟨hxevents, hxid⟩ := hclaimed x (hlisted ▸ hx) hxknown
    exact hrunning x hxevents (Or.inr hxid) hkey
  · by_cases hid : x.id ∈ (r.served listed).map Event.id
    · exact hrunning x hx (Or.inr hid) hkey
    · exact key_ne_of_pending hy hyknown hnew (mem_claimed_of_not_mem hx hid) hwaits hxknown hkey

end Store

/-! ## The cycle -/

namespace Dispatcher

variable {d : Dispatcher}

/-- The dispatcher once these events are claimed and their workers are started; the
journal is as given. -/
def startedFor (d : Dispatcher) (listed : List Event) (journal : List Trace) : Dispatcher :=
  { d with
    store := d.store.claimed d.now (d.registry.served listed)
    workers := d.workers ++ d.registry.crew d.started listed
    started := d.started + (d.registry.served listed).length
    journal := journal }

theorem startedFor_of_served_eq_nil {listed : List Event} (h : d.registry.served listed = [])
    (journal : List Trace) : d.startedFor listed journal = { d with journal } := by
  simp [startedFor, h, Registry.crew_eq_nil h, Store.claimed_nil]

theorem startOne_of_clear (haccess : d.access = .unhindered) {e : Event} {rest : List Event}
    (h : d.store.Clear d.registry (e :: rest)) {entry : Entry}
    (hentry : d.registry.find? e.tag = some entry) :
    ∃ journal, d.startOne e = (true,
      { d with
        store := d.store.revise e.id fun x =>
          { x with status := .processing, updated := d.now }
        workers := d.workers ++
          [.spawned d.started { e with status := .processing } entry.handler]
        started := d.started + 1
        journal := journal }) := by
  have hknown : d.registry.contains e.tag = true := by simp [Registry.contains, hentry]
  have hclaim : d.access.claim d.store d.now e.id =
      .ok (true, d.store.revise e.id fun x =>
        { x with status := .processing, updated := d.now }) := by
    rw [haccess]
    simp only [Access.claim, h.claim?_eq_some hknown]
    rfl
  unfold startOne
  simp only [hentry, hclaim]
  exact ⟨_, rfl⟩

/-- Every listed event of a registered tag is claimed and gets its worker. -/
theorem startAll_of_clear (haccess : d.access = .unhindered) {listed : List Event}
    (h : d.store.Clear d.registry listed) :
    ∃ journal, d.startAll listed =
      ((d.registry.served listed).length, d.startedFor listed journal) := by
  induction listed generalizing d with
  | nil =>
    refine ⟨d.journal, ?_⟩
    simp [startAll, startedFor, Registry.served, Registry.crew, Store.claimed_nil]
  | cons e rest ih =>
    cases hentry : d.registry.find? e.tag with
    | none =>
      obtain ⟨trace, hone⟩ : ∃ trace, d.startOne e = (false, d.tell trace) := by
        simp only [startOne, hentry]
        exact ⟨_, rfl⟩
      obtain ⟨journal, hrest⟩ := ih (d := d.tell trace) haccess h.tail
      refine ⟨journal, ?_⟩
      simp only [startAll, hone, hrest]
      simp [startedFor, tell, Registry.crew, hentry, Registry.served_cons_of_none hentry]
    | some entry =>
      have hknown : d.registry.contains e.tag = true := by simp [Registry.contains, hentry]
      obtain ⟨told, hone⟩ := startOne_of_clear haccess h hentry
      obtain ⟨journal, hrest⟩ := ih (d := { d with
          store := d.store.revise e.id fun x =>
            { x with status := .processing, updated := d.now }
          workers := d.workers ++
            [.spawned d.started { e with status := .processing } entry.handler]
          started := d.started + 1
          journal := told }) haccess (h.revise hknown d.now)
      refine ⟨journal, ?_⟩
      simp only [startAll, hone, hrest]
      simp [startedFor, Registry.crew, hentry, Registry.served_cons_of_some hentry,
        Store.claimed_revise]
      omega

/-- A leader whose store is within reach lists events, and starts what it listed. -/
theorem cycle_of_leading (haccess : d.access = .unhindered) (hleading : d.leading = true)
    (hanswer : d.election.answer = .ok true) (hids : d.store.DistinctIds)
    (paused : List EventClass) (now : Instant) {listed : List Event}
    (hlisted : d.store.dispatchable (d.registry.filterFor paused) now = listed) :
    ∃ journal, d.cycle paused now =
      (.ok (d.registry.served listed).length, d.startedFor listed journal) := by
  have hopen : d.openCycle paused now = (.ok listed, d) := by
    unfold openCycle checkLead
    simp only [hanswer, hleading, if_true, haccess, ← hlisted]
    rfl
  have hclear := Store.clear_dispatchable hids d.registry paused now
  rw [hlisted] at hclear
  obtain ⟨journal, hall⟩ := startAll_of_clear haccess hclear
  exact ⟨journal, by simp only [cycle, hopen, hall]⟩

/-- A cycle of a leader claims the listed events of registered tags and starts a worker
for each, in order and with the event as it was listed but for its status; all else but
the journal stays.  The same cycle right after it starts nothing. -/
theorem cycle_starts_listed (hids : d.store.DistinctIds) (haccess : d.access = .unhindered)
    (hleading : d.leading = true) (hanswer : d.election.answer = .ok true)
    (paused : List EventClass) (now : Instant) :
    ∃ (listed : List Event) (crew : List Worker) (journal journal' : List Trace),
      listed = d.registry.served (d.store.dispatchable (d.registry.filterFor paused) now) ∧
      crew.map Worker.event = listed.map (fun e => { e with status := .processing }) ∧
      (∀ w ∈ crew, ∃ entry, d.registry.find? w.event.tag = some entry ∧
        w = .spawned w.serial w.event entry.handler) ∧
      d.cycle paused now = (.ok listed.length,
        { d with
          store := d.store.claimed d.now listed
          workers := d.workers ++ crew
          started := d.started + listed.length
          journal := journal }) ∧
      (d.cycle paused now).2.cycle paused now =
        (.ok 0, { (d.cycle paused now).2 with journal := journal' }) := by
  obtain ⟨journal, hfirst⟩ := cycle_of_leading haccess hleading hanswer hids paused now rfl
  generalize hlisted : d.store.dispatchable (d.registry.filterFor paused) now = listed at hfirst
  generalize hnext : d.startedFor listed journal = d' at hfirst
  have hnone : d'.registry.served
      (d'.store.dispatchable (d'.registry.filterFor paused) now) = [] := by
    subst hnext hlisted
    exact Store.served_dispatchable_claimed d.store d.registry paused d.now now
  obtain ⟨journal', hagain⟩ := cycle_of_leading (d := d') (by subst hnext; exact haccess)
    (by subst hnext; exact hleading) (by subst hnext; exact hanswer)
    (by subst hnext; exact hids.claimed _ _) paused now rfl
  rw [hnone, startedFor_of_served_eq_nil hnone] at hagain
  refine ⟨d.registry.served listed, d.registry.crew d.started listed, journal, journal', rfl,
    Registry.events_crew _ _ _, fun w hw => Registry.spawned_of_mem_crew hw, ?_, ?_⟩
  · rw [hfirst, ← hnext]
    rfl
  · rw [hfirst]
    exact hagain

def mixedRegistry : Registry :=
  ⟨[("create:team", ⟨.team, .ofScripts []⟩), ("update:team", ⟨.team, .ofScripts []⟩)]⟩

/-- A leader whose store holds two events of one key, one of another key, and one whose
tag is not registered. -/
def mixedStart : Dispatcher :=
  let record := fun (s : Store) (serial : Nat) (tag : Tag) (owner : String) =>
    s.insert (.ofSerial serial) .epoch ⟨tag, owner, .null, .ofSeconds 300⟩
  { Dispatcher.initial mixedRegistry ⟨1000, ⟨.ofSeconds 60, 3⟩, none⟩ .unhindered .always
      .epoch with
    store :=
      record (record (record (record .empty 0 "create:team" "a") 1 "update:team" "a")
        2 "delete:team" "b") 3 "update:team" "b"
    leading := true }

theorem cycle_starts_listed_of_mixedStart :
    ∃ (listed : List Event) (crew : List Worker) (journal journal' : List Trace),
      listed.map Event.id = [.ofSerial 0, .ofSerial 3] ∧
      crew.map Worker.event = listed.map (fun e => { e with status := .processing }) ∧
      (∀ w ∈ crew, ∃ entry, mixedRegistry.find? w.event.tag = some entry ∧
        w = .spawned w.serial w.event entry.handler) ∧
      mixedStart.cycle [] .epoch = (.ok listed.length,
        { mixedStart with
          store := mixedStart.store.claimed .epoch listed
          workers := crew
          started := listed.length
          journal := journal }) ∧
      (mixedStart.cycle [] .epoch).2.cycle [] .epoch =
        (.ok 0, { (mixedStart.cycle [] .epoch).2 with journal := journal' }) := by
  have hids : mixedStart.store.DistinctIds := by
    unfold Store.DistinctIds
    decide +kernel
  obtain ⟨listed, crew, journal, journal', hlisted, hcrew, hspawned, hfirst, hagain⟩ :=
    cycle_starts_listed hids rfl rfl rfl [] .epoch
  have hlistedIds : (mixedRegistry.served (mixedStart.store.dispatchable
      (mixedRegistry.filterFor []) .epoch)).map Event.id = [.ofSerial 0, .ofSerial 3] := by cbv
  refine ⟨listed, crew, journal, journal', ?_, hcrew, hspawned, ?_, hagain⟩
  · rw [hlisted]
    exact hlistedIds
  · rw [hfirst]
    simp [mixedStart, initial]

end Dispatcher
end EventDispatch
