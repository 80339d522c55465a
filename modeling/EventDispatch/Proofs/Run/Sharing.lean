import EventDispatch.Proofs.Run.Lanes
import EventDispatch.Proofs.Store.Lifecycle
import Mathlib

/-!
# Claims of listed events

**Input.** Any number of dispatchers that share one store, and any number of their cycles
at a time, also of one dispatcher.  A cycle lists in one step and then claims one event a
step; between two of its steps other cycles, workers and callers of the store take theirs.

**Algorithm.** A claim compares the status alone: it is granted if the stored event is new
or pending and no other event with its key is being run.  The worker is given the event as
it was listed.

**Invariant.** A listed event keeps its place and what it is about (`Store.Later`).  As
long as it is not being run it stays exactly as it was listed, or it has ended
(`effectOn_of_waiting`).

**Results.** `Fleet.claims_of_listings`: whatever happened since the listing, a claim is
granted only for a new or pending event, and the worker has no more retries than are
stored; if the event was not being run in between, it is stored as it was listed, so it
is new or overdue and the worker has its retries and its deadline.
`Fleet.outdated_of_crossedMoves`: it may be otherwise if it was being run in between.
-/

namespace EventDispatch

/-! ## An event that waits -/

namespace Store

/-- The stores that at most one call leads to. -/
def Takes (s s' : Store) : Prop := s' = s ∨ ∃ c : Call, c.isFresh s = true ∧ s' = s.after c

/-- A call leaves an event that waits as it is, starts to run it, or ends it. -/
theorem effectOn_of_waiting {s : Store} {e : Event} (c : Call)
    (hwaits : e.status = .new ∨ e.status = .pending) :
    c.effectOn s e = e ∨ (c.effectOn s e).status = .processing ∨
      (c.effectOn s e).status.isTerminal = true := by
  have hidle : e.status ≠ .processing := by
    rcases hwaits with h | h <;> simp [h]
  cases c with
  | insert | append => exact Or.inl rfl
  | claim clock id =>
    simp only [Call.effectOn]
    split
    · exact Or.inr (Or.inl rfl)
    · exact Or.inl rfl
  | setStatus clock id status =>
    simp only [Call.effectOn]
    split
    · next hgranted =>
      right
      cases status with
      | new => cases hgranted.2
      | processing => exact Or.inl rfl
      | pending =>
        have hsource : e.status = .processing := by
          simpa [Status.canBecome, Status.sources] using hgranted.2
        exact absurd hsource hidle
      | completed | failed => exact Or.inr rfl
    · exact Or.inl rfl
  | retry | resetProcessing | resetStale => simp [Call.effectOn, hidle]

end Store

/-! ## Dispatchers that share a store -/

/-- A cycle under way: who runs it, the time that it goes by, and the listed events that it
has yet to go through. -/
structure Pass where
  owner : Nat
  now : Instant
  todo : List Event

/-- Dispatchers that share a store, and all their cycles. -/
structure Fleet where
  store : Store
  members : Nat → Dispatcher
  passes : List Pass

namespace Fleet

/-- Dispatchers that share an empty store. -/
def initial (members : Nat → Dispatcher) : Fleet := ⟨.empty, members, []⟩

/-- A dispatcher, with the store that all share. -/
def member (f : Fleet) (i : Nat) : Dispatcher := { f.members i with store := f.store }

/-- Takes over a dispatcher and its store. -/
def adopt (f : Fleet) (i : Nat) (d : Dispatcher) : Fleet :=
  { f with store := d.store, members := fun j => if j = i then d else f.members j }

inductive Move where
  /-- A dispatcher begins a cycle. -/
  | opens (i : Nat) (paused : List EventClass) (now : Instant)
  /-- A cycle goes on to its next event. -/
  | goesOn (k : Nat)
  /-- A worker of a dispatcher goes on by a step. -/
  | works (i serial : Nat)
  /-- Somebody else calls the store. -/
  | calls (c : Store.Call)
  /-- Something else about a dispatcher changes: its clocks, its election, its access. -/
  | alters (i : Nat) (d : Dispatcher)

/-- What a cycle that was just begun has to go through. -/
def todoOf : Except DispatchError (List Event) → List Event
  | .ok todo => todo
  | .error _ => []

/-- The fleet after a move; none if the move is not possible. -/
def after? (f : Fleet) : Move → Option Fleet
  | .opens i paused now =>
    match (f.member i).openCycle paused now with
    | (answer, d) => some { f.adopt i d with passes := f.passes ++ [⟨i, now, todoOf answer⟩] }
  | .goesOn k =>
    match f.passes[k]? with
    | some ⟨i, now, e :: rest⟩ =>
      some { f.adopt i ((f.member i).startOne e).2 with passes := f.passes.set k ⟨i, now, rest⟩ }
    | _ => none
  | .works i serial => ((f.member i).workOn? serial).map (f.adopt i)
  | .calls c => some { f with store := f.store.after c }
  | .alters i d => some (f.adopt i { d with store := f.store })

/-- The fleets that allowed moves lead to. -/
inductive Reaches (allowed : Fleet → Move → Bool) (f₀ : Fleet) : Fleet → Prop
  | refl : Reaches allowed f₀ f₀
  | move {f f' : Fleet} (m : Move) :
      Reaches allowed f₀ f → allowed f m = true → f.after? m = some f' → Reaches allowed f₀ f'

/-- Makes moves one after the other, as long as each is allowed and possible. -/
def follow? (allowed : Fleet → Move → Bool) : Fleet → List Move → Option Fleet
  | f, [] => some f
  | f, m :: rest => if allowed f m then (f.after? m).bind (follow? allowed · rest) else none

theorem Reaches.follow? {allowed : Fleet → Move → Bool} {f₀ f f' : Fleet}
    (h : Reaches allowed f₀ f) {moves : List Move}
    (hrun : f.follow? allowed moves = some f') : Reaches allowed f₀ f' := by
  induction moves generalizing f with
  | nil =>
    cases hrun
    exact h
  | cons m rest ih =>
    simp only [Fleet.follow?] at hrun
    split at hrun
    · next hm =>
      obtain ⟨g, hg, hrest⟩ := Option.bind_eq_some_iff.1 hrun
      exact ih (.move m h hm hg) hrest
    · cases hrun

/-- Whether a move, if it records an event, gives it an identifier that no event has. -/
def givesFresh (f : Fleet) : Move → Bool
  | .calls c => c.isFresh f.store
  | _ => true

/-- Whether an event is not being run. -/
def isIdle (f : Fleet) (id : Uuid) : Bool := (f.store.find? id).all fun e => e.status ≠ .processing

end Fleet

/-! ## What a move does to the store -/

theorem Core.Writes.takes {c : Core} {store : Store} (h : c.Writes store) :
    c.store.Takes store := by
  rcases h with hsame | ⟨call, hstore, hfresh, -⟩
  · exact Or.inl hsame
  · exact Or.inr ⟨call, hfresh, hstore⟩

namespace Dispatcher

theorem takes_openCycle (d : Dispatcher) (paused : List EventClass) (now : Instant) :
    d.store.Takes (d.openCycle paused now).2.store := by
  have hlead : d.store.Takes d.checkLead.2.store := by
    have hcore := core_checkLead (rfl : d.checkLead = (d.checkLead.1, d.checkLead.2)) [] []
    split at hcore
    · exact Or.inl (congrArg Core.store hcore)
    · rw [show d.checkLead.2.store = (d.core [] []).lead.store from
        congrArg Core.store hcore.2]
      exact (Core.writes_lead (d.core [] [])).takes
    · exact Or.inl (congrArg Core.store hcore.2)
  unfold openCycle
  split <;> rename_i heq <;> rw [heq] at hlead
  · exact hlead
  · exact hlead
  · split <;> exact hlead

/-- What a cycle is about to go through is stored, and new or overdue at its time. -/
theorem stored_of_openCycle {d d' : Dispatcher} {paused : List EventClass} {now : Instant}
    {todo : List Event} {e : Event} (h : d.openCycle paused now = (.ok todo, d'))
    (he : e ∈ todo) :
    e ∈ d'.store.events ∧ (e.status = .pending ∧ e.isOverdue now = true ∨ e.status = .new) := by
  unfold openCycle at h
  split at h
  · cases h
  · cases h
    cases he
  · split at h
    · cases h
    · next hlist =>
      cases h
      rw [Access.events_of_listDispatchable hlist] at he
      exact Store.mem_of_mem_dispatchable he

end Dispatcher

namespace Fleet

variable {f f' f₁ f₂ : Fleet} {m : Move}

/-- Every move makes at most one call of the store. -/
theorem takes_of_after? (hm : f.givesFresh m = true) (h : f.after? m = some f') :
    f.store.Takes f'.store := by
  cases m with
  | opens i paused now =>
    cases h
    exact (f.member i).takes_openCycle paused now
  | goesOn k =>
    simp only [after?] at h
    split at h
    · next i now e rest _ =>
      cases h
      exact ((f.member i).step_startOne e rest []).writes.takes
    · cases h
  | works i serial =>
    obtain ⟨d, hwork, rfl⟩ := Option.map_eq_some_iff.1 h
    exact (Dispatcher.step_workOn hwork [] []).writes.takes
  | calls c =>
    cases h
    exact Or.inr ⟨c, hm, rfl⟩
  | alters i d =>
    cases h
    exact Or.inl rfl

/-- A cycle that is under way has at most that much to go through later on. -/
structure Leaves (p p' : Pass) : Prop where
  owner : p'.owner = p.owner
  now : p'.now = p.now
  todo : p'.todo ⊆ p.todo

/-- A cycle keeps its number, its owner and its time. -/
theorem leaves_of_after? {k : Nat} {p : Pass} (h : f.after? m = some f')
    (hp : f.passes[k]? = some p) : ∃ p', f'.passes[k]? = some p' ∧ Leaves p p' := by
  have hsame : Leaves p p := ⟨rfl, rfl, List.Subset.refl _⟩
  cases m with
  | opens i paused now =>
    cases h
    refine ⟨p, ?_, hsame⟩
    rw [List.getElem?_append_left (List.getElem?_eq_some_iff.1 hp).1, hp]
  | goesOn j =>
    simp only [after?] at h
    split at h
    · next i now e rest hj =>
      cases h
      by_cases hjk : j = k
      · subst hjk
        rw [hj] at hp
        cases hp
        refine ⟨⟨i, now, rest⟩, ?_, ⟨rfl, rfl, List.subset_cons_self e rest⟩⟩
        exact List.getElem?_set_self (List.getElem?_eq_some_iff.1 hj).1
      · refine ⟨p, ?_, hsame⟩
        rw [List.getElem?_set_ne hjk, hp]
    · cases h
  | works i serial =>
    obtain ⟨d, -, rfl⟩ := Option.map_eq_some_iff.1 h
    exact ⟨p, hp, hsame⟩
  | calls | alters =>
    cases h
    exact ⟨p, hp, hsame⟩

theorem leaves_of_reaches {allowed : Fleet → Move → Bool} {k : Nat} {p : Pass}
    (h : Reaches allowed f f') (hp : f.passes[k]? = some p) :
    ∃ p', f'.passes[k]? = some p' ∧ Leaves p p' := by
  induction h with
  | refl => exact ⟨p, hp, rfl, rfl, List.Subset.refl _⟩
  | move m _ _ hafter ih =>
    obtain ⟨q, hq, hleaves⟩ := ih
    obtain ⟨p', hp', hleaves'⟩ := leaves_of_after? hafter hq
    exact ⟨p', hp', hleaves'.owner.trans hleaves.owner, hleaves'.now.trans hleaves.now,
      List.Subset.trans hleaves'.todo hleaves.todo⟩

/-- The store of a fleet only becomes later. -/
theorem later_of_reaches (hids : f.store.DistinctIds) (h : Reaches givesFresh f f') :
    f.store.Later f'.store ∧ f'.store.DistinctIds := by
  induction h with
  | refl => exact ⟨.refl _, hids⟩
  | move m _ hm hafter ih =>
    obtain ⟨hlater, hids'⟩ := ih
    rcases takes_of_after? hm hafter with hsame | ⟨c, hfresh, hstore⟩
    · rw [hsame]
      exact ⟨hlater, hids'⟩
    · rw [hstore]
      exact ⟨hlater.trans (Store.later_after hids' c), hids'.after hfresh⟩

/-! ## What is left of a listing -/

/-- Recorded events get fresh identifiers, and an event is not being run. -/
def sparing (id : Uuid) (f : Fleet) (m : Move) : Bool := f.givesFresh m && f.isIdle id

theorem Reaches.givesFresh {id : Uuid} (h : Reaches (sparing id) f f') :
    Reaches Fleet.givesFresh f f' := by
  induction h with
  | refl => exact .refl
  | move m _ hm hafter ih => exact ih.move m (Bool.and_eq_true_iff.1 hm).1 hafter

/-- A listed event is stored as it was listed, or it is being run, or it has ended. -/
def Keeps (f : Fleet) (e : Event) : Prop :=
  ∃ x ∈ f.store.events, x.id = e.id ∧
    (x = e ∨ x.status = .processing ∨ x.status.isTerminal = true)

/-- What is not being run stays as it was listed, until it is claimed or ends. -/
theorem Keeps.after? {e : Event} (h : f.Keeps e) (hids : f.store.DistinctIds)
    (hwaits : e.status = .new ∨ e.status = .pending) (hm : sparing e.id f m = true)
    (hafter : f.after? m = some f') : f'.Keeps e := by
  obtain ⟨hfresh, hidle⟩ := Bool.and_eq_true_iff.1 hm
  rcases takes_of_after? hfresh hafter with hsame | ⟨c, -, hstore⟩
  · unfold Keeps
    rw [hsame]
    exact h
  · obtain ⟨x, hx, hid, hcases⟩ := h
    have hnot : x.status ≠ .processing := by
      rw [isIdle, ← hid, Store.find?_eq_some_of_mem hids hx] at hidle
      simpa using hidle
    refine ⟨c.effectOn f.store x, ?_, (Store.id_effectOn f.store x c).trans hid, ?_⟩
    · rw [hstore, Store.mem_after hids]
      exact Or.inl ⟨x, hx, rfl⟩
    · rcases hcases with rfl | hrun | hended
      · exact Store.effectOn_of_waiting c hwaits
      · exact absurd hrun hnot
      · rw [Store.effectOn_of_isTerminal f.store hended c]
        exact Or.inr (Or.inr hended)

theorem keeps_of_reaches {e : Event} (hids : f.store.DistinctIds) (he : e ∈ f.store.events)
    (hwaits : e.status = .new ∨ e.status = .pending) (h : Reaches (sparing e.id) f f') :
    f'.Keeps e := by
  induction h with
  | refl => exact ⟨e, he, rfl, Or.inl rfl⟩
  | move m hbefore hm hafter ih =>
    exact ih.after? (later_of_reaches hids hbefore.givesFresh).2 hwaits hm hafter

theorem Keeps.eq_of_waits {e stored : Event} (h : f.Keeps e) (hids : f.store.DistinctIds)
    (hfind : f.store.find? e.id = some stored)
    (hwaits : stored.status = .new ∨ stored.status = .pending) : stored = e := by
  obtain ⟨x, hx, hid, hcases⟩ := h
  rw [← hid, Store.find?_eq_some_of_mem hids hx] at hfind
  cases hfind
  rcases hcases with hsame | hrun | hended
  · exact hsame
  · rcases hwaits with h | h <;> simp [h] at hrun
  · rcases hwaits with h | h <;> simp [h, Status.isTerminal] at hended

/-- What a cycle has yet to go through was stored at its listing, and new or overdue. -/
theorem listed_of_opens {allowed : Fleet → Move → Bool} {i : Nat} {paused : List EventClass}
    {now : Instant} {e : Event} {rest : List Event}
    (hopen : f.after? (.opens i paused now) = some f₁) (hsince : Reaches allowed f₁ f₂)
    (hpass : f₂.passes[f.passes.length]? = some ⟨i, now, e :: rest⟩) :
    e ∈ f₁.store.events ∧ (e.status = .pending ∧ e.isOverdue now = true ∨ e.status = .new) := by
  cases hcycle : (f.member i).openCycle paused now with
  | mk answer d =>
    simp only [after?, hcycle, Option.some.injEq] at hopen
    subst hopen
    obtain ⟨p', hp', hleaves⟩ := leaves_of_reaches hsince List.getElem?_concat_length
    rw [hpass] at hp'
    cases hp'
    have hlisted : e ∈ todoOf answer := hleaves.todo List.mem_cons_self
    cases answer with
    | error cause => cases hlisted
    | ok todo => exact Dispatcher.stored_of_openCycle hcycle hlisted

/-- Whatever happened since a cycle listed an event, its claim is granted only if the
event is new or pending and no other event with its key is being run; the worker is given
the event as it was listed, which was new or overdue then, and has no more retries than
are stored.  If the event was not being run at any time since the listing, it is stored
as it was listed. -/
theorem claims_of_listings {members : Nat → Dispatcher} {i : Nat} {paused : List EventClass}
    {now : Instant} {e : Event} {rest : List Event} {d : Dispatcher}
    (hrun : Reaches givesFresh (.initial members) f)
    (hopen : f.after? (.opens i paused now) = some f₁)
    (hsince : Reaches givesFresh f₁ f₂)
    (hpass : f₂.passes[f.passes.length]? = some ⟨i, now, e :: rest⟩)
    (hclaim : (f₂.member i).startOne e = (true, d)) :
    ∃ stored entry,
      (f₂.member i).registry.find? e.tag = some entry ∧
      d.workers = (f₂.member i).workers ++
        [.spawned (f₂.member i).started { e with status := .processing } entry.handler] ∧
      f₂.store.find? e.id = some stored ∧ e.Later stored ∧
      (stored.status = .new ∨ stored.status = .pending) ∧
      f₂.store.isBusy stored.id stored.key = false ∧
      e ∈ f₁.store.events ∧
      (e.status = .new ∨ e.status = .pending ∧ e.isOverdue now = true) ∧
      (Reaches (sparing e.id) f₁ f₂ → stored = e) := by
  obtain ⟨hmem, hready⟩ := listed_of_opens hopen hsince hpass
  have hids : f₁.store.DistinctIds :=
    (later_of_reaches Store.distinctIds_empty (hrun.move _ rfl hopen)).2
  obtain ⟨hlater, hids₂⟩ := later_of_reaches hids hsince
  obtain ⟨n, hn⟩ := List.getElem?_of_mem hmem
  obtain ⟨stored, hplace, hstored⟩ := hlater.events n e hn
  have hfind : f₂.store.find? e.id = some stored := by
    rw [← hstored.id]
    exact Store.find?_eq_some_of_mem hids₂ (List.mem_of_getElem? hplace)
  rcases (f₂.member i).startOne_cases e with ⟨journal, hone⟩ |
    ⟨entry, store, journal, hentry, hgranted, hone⟩
  · rw [hone] at hclaim
    cases hclaim
  · rw [hone] at hclaim
    cases hclaim
    obtain ⟨target, htarget, hwaiting, hbusy⟩ := Store.target_of_claim? hgranted
    obtain rfl : stored = target := Option.some.inj (hfind.symm.trans htarget)
    refine ⟨stored, entry, hentry, rfl, hfind, hstored, hwaiting, hstored.id ▸ hbusy, hmem,
      hready.symm, fun hsparing => ?_⟩
    have hwaits : e.status = .new ∨ e.status = .pending :=
      hready.elim (fun h => Or.inr h.1) Or.inl
    exact (keeps_of_reaches hids hmem hwaits hsparing).eq_of_waits hids₂ hfind hwaiting

/-- Two tags; the handler of the first asks for another run. -/
def crossedMembers (_ : Nat) : Dispatcher :=
  .initial ⟨[("a:r", ⟨.team, .ofScripts [⟨[], .outcome .retry⟩]⟩), ("a:q", ⟨.team, .ofScripts []⟩)]⟩
    ⟨1000, ⟨.ofSeconds 60, 3⟩, none⟩ .unhindered .always .epoch

def crossedRequest (tag : Tag) : NewEvent := ⟨tag, "o", .null, .ofSeconds 300⟩

def crossedRecords : List Move :=
  [.calls (.insert (.ofSerial 0) .epoch (crossedRequest "a:r")),
    .calls (.insert (.ofSerial 1) .epoch (crossedRequest "a:q"))]

/-- A second dispatcher lists the two events as well and claims the first one, whose worker
sends it back to wait. -/
def crossedMoves : List Move :=
  [.opens 1 [] .epoch, .goesOn 1, .works 1 0, .works 1 0, .works 1 0, .works 1 0, .works 1 0,
    .works 1 0, .works 1 0]

/-- The claim of a listed event is granted although the event was sent back with one more
retry in between, is not due, and has a longer deadline than its worker is given. -/
theorem outdated_of_crossedMoves :
    ∃ f f₁ f₂ e rest d stored,
      Reaches givesFresh (.initial crossedMembers) f ∧
      f.after? (.opens 0 [] .epoch) = some f₁ ∧ Reaches givesFresh f₁ f₂ ∧
      f₂.passes[f.passes.length]? = some ⟨0, .epoch, e :: rest⟩ ∧
      (f₂.member 0).startOne e = (true, d) ∧ f₂.store.find? e.id = some stored ∧
      stored.status = .pending ∧ stored.isOverdue .epoch = false ∧
      (stored.retries, stored.deadline) = (1, .ofSeconds 360) ∧
      d.workers.map (fun w => (w.event.retries, w.event.deadline)) = [(0, .ofSeconds 300)] := by
  have hrun : ((follow? givesFresh (.initial crossedMembers) crossedRecords).bind fun f =>
      (f.after? (.opens 0 [] .epoch)).bind fun f₁ =>
        (f₁.follow? givesFresh crossedMoves).bind fun f₂ =>
          (f₂.store.find? (.ofSerial 0)).map fun stored =>
            let e := (crossedRequest "a:r").recorded (.ofSerial 0) .epoch
            (f₂.passes[f.passes.length]?, ((f₂.member 0).startOne e).1, stored.status,
              stored.isOverdue .epoch, stored.retries, stored.deadline,
              ((f₂.member 0).startOne e).2.workers.map fun w =>
                (w.event.retries, w.event.deadline))) =
      some (some ⟨0, .epoch, [(crossedRequest "a:r").recorded (.ofSerial 0) .epoch,
          (crossedRequest "a:q").recorded (.ofSerial 1) .epoch]⟩, true, .pending, false, 1,
        .ofSeconds 360, [(0, .ofSeconds 300)]) := by cbv
  obtain ⟨f, hf, hrest⟩ := Option.bind_eq_some_iff.1 hrun
  obtain ⟨f₁, hopen, hrest⟩ := Option.bind_eq_some_iff.1 hrest
  obtain ⟨f₂, hf₂, hrest⟩ := Option.bind_eq_some_iff.1 hrest
  obtain ⟨stored, hstored, hview⟩ := Option.map_eq_some_iff.1 hrest
  simp only [Prod.mk.injEq] at hview
  obtain ⟨hpass, hgranted, hstatus, hdue, hretries, hdeadline, hworkers⟩ := hview
  exact ⟨f, f₁, f₂, _, _, _, stored, Reaches.refl.follow? hf, hopen, Reaches.refl.follow? hf₂,
    hpass, Prod.ext hgranted rfl, hstored, hstatus, hdue, Prod.ext hretries hdeadline, hworkers⟩

/-- The claim of the second event, which nobody else claims. -/
theorem claims_of_listings_of_crossedMoves :
    ∃ f f₁ f₂ e d, Reaches givesFresh (.initial crossedMembers) f ∧
      f.after? (.opens 0 [] .epoch) = some f₁ ∧ Reaches (sparing e.id) f₁ f₂ ∧
      f₂.passes[f.passes.length]? = some ⟨0, .epoch, [e]⟩ ∧
      (f₂.member 0).startOne e = (true, d) ∧
      ∃ stored entry,
        (f₂.member 0).registry.find? e.tag = some entry ∧
        d.workers = (f₂.member 0).workers ++
          [.spawned (f₂.member 0).started { e with status := .processing } entry.handler] ∧
        f₂.store.find? e.id = some stored ∧ e.Later stored ∧
        (stored.status = .new ∨ stored.status = .pending) ∧
        f₂.store.isBusy stored.id stored.key = false ∧
        e ∈ f₁.store.events ∧
        (e.status = .new ∨ e.status = .pending ∧ e.isOverdue .epoch = true) ∧
        (Reaches (sparing e.id) f₁ f₂ → stored = e) := by
  have hrun : ((follow? givesFresh (.initial crossedMembers) crossedRecords).bind fun f =>
      (f.after? (.opens 0 [] .epoch)).bind fun f₁ =>
        (f₁.follow? (sparing (.ofSerial 1)) (crossedMoves ++ [.goesOn 0])).map fun f₂ =>
          (f₂.passes[f.passes.length]?,
            ((f₂.member 0).startOne
              ((crossedRequest "a:q").recorded (.ofSerial 1) .epoch)).1)) =
      some (some ⟨0, .epoch, [(crossedRequest "a:q").recorded (.ofSerial 1) .epoch]⟩, true) := by
    cbv
  obtain ⟨f, hf, hrest⟩ := Option.bind_eq_some_iff.1 hrun
  obtain ⟨f₁, hopen, hrest⟩ := Option.bind_eq_some_iff.1 hrest
  obtain ⟨f₂, hf₂, hview⟩ := Option.map_eq_some_iff.1 hrest
  obtain ⟨hpass, hgranted⟩ := Prod.mk.inj hview
  have hreaches : Reaches givesFresh (.initial crossedMembers) f := Reaches.refl.follow? hf
  have hsparing : Reaches (sparing (.ofSerial 1)) f₁ f₂ := Reaches.refl.follow? hf₂
  exact ⟨f, f₁, f₂, _, _, hreaches, hopen, hsparing, hpass, Prod.ext hgranted rfl,
    claims_of_listings hreaches hopen hsparing.givesFresh hpass (Prod.ext hgranted rfl)⟩

end Fleet
end EventDispatch
