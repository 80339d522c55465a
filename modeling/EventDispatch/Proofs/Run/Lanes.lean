import EventDispatch.Proofs.Run.Core
import EventDispatch.Proofs.Store.Selecting

/-!
# Lanes

**Input.** A move of one dispatcher.  Two registered events of one key are in one
lane.

**Invariant.** The turn of an event has come once it is no longer new, or a cycle
under way has listed it.  Of two events of one lane whose turn has come, one has
ended (`Core.Laned`).  A listing looks at the whole store, and from then on nobody
else's turn comes until the listed events are claimed or passed over.

**Results.** Every move keeps the invariant (`Laned.step`), whatever the clock, the
paused classes and the lead do.  An event leaves `new` only when its turn has come.
-/

namespace EventDispatch

/-- Two events that must not run together: of one key, and both have a handler. -/
def Registry.SameLane (r : Registry) (a b : Event) : Prop :=
  a.key = b.key ∧ r.contains a.tag = true ∧ r.contains b.tag = true

theorem Registry.SameLane.symm {r : Registry} {a b : Event} (h : r.SameLane a b) :
    r.SameLane b a :=
  ⟨h.1.symm, h.2.2, h.2.1⟩

theorem Registry.sameLane_effectOn (r : Registry) (s : Store) (call : Store.Call)
    (a b : Event) :
    r.SameLane (call.effectOn s a) (call.effectOn s b) ↔ r.SameLane a b := by
  simp only [SameLane, Store.key_effectOn, Store.tag_effectOn]

namespace Core

/-- The cycle under way has an event of this identifier yet to go through. -/
def Lists (c : Core) (id : Uuid) : Prop := ∃ x ∈ c.candidates, x.id = id

/-- The turn of an event has come. -/
def HasTurn (c : Core) (e : Event) : Prop := e.status ≠ .new ∨ c.Lists e.id

/-- Of the events of one lane, at most one has its turn. -/
structure Laned (c : Core) : Prop where
  ids : c.store.DistinctIds
  listed : ∀ x ∈ c.candidates, ∃ e ∈ c.store.events, e.id = x.id
  alone : c.store.events.Pairwise fun a b =>
    c.registry.SameLane a b → c.HasTurn a → c.HasTurn b →
      a.status.isTerminal = true ∨ b.status.isTerminal = true

theorem laned_initial {registry : Registry} {settings : Settings} {access : Access}
    {election : Election} {now : Instant} :
    (Service.ofDispatcher (.initial registry settings access election now)).core.Laned := by
  refine ⟨List.Pairwise.nil, fun x hx => ?_, List.Pairwise.nil⟩
  cases hx

theorem Laned.alone_of_mem {c : Core} (h : c.Laned) {a b : Event} (ha : a ∈ c.store.events)
    (hb : b ∈ c.store.events) (hne : a ≠ b) (hlane : c.registry.SameLane a b)
    (hturnA : c.HasTurn a) (hturnB : c.HasTurn b) :
    a.status.isTerminal = true ∨ b.status.isTerminal = true := by
  have : Std.Symm fun a b : Event =>
      c.registry.SameLane a b → c.HasTurn a → c.HasTurn b →
        a.status.isTerminal = true ∨ b.status.isTerminal = true :=
    ⟨fun _ _ hab hlane hb ha => (hab hlane.symm ha hb).symm⟩
  exact h.alone.forall ha hb hne hlane hturnA hturnB

/-! ## What a move writes -/

/-- The stores that a move may lead to: it makes at most one call, and claims only
what is listed. -/
def Writes (c : Core) (store : Store) : Prop :=
  store = c.store ∨
    ∃ call : Store.Call, store = c.store.after call ∧ call.isFresh c.store = true ∧
      call.endsOnly = true ∧ ∀ clock id, call = .claim clock id → c.Lists id

theorem Acts.writes {c : Core} {p : Policy} {e : Event} {action : Action} {store : Store}
    (h : c.Acts p e action store) : c.Writes store := by
  rcases h with hsame | ⟨row, call, hcall, hstore⟩
  · exact Or.inl hsame
  · refine Or.inr ⟨call, hstore, ?_⟩
    rcases Action.call?_cases hcall with ⟨written, rfl⟩ | rfl | rfl | rfl
    all_goals exact ⟨rfl, rfl, fun _ _ h => nomatch h⟩

theorem Progress.writes {c : Core} {w : Worker} {stage : Stage} {store : Store}
    (h : c.Progress w stage store) : c.Writes store := by
  cases h with
  | opens _ hacts | handles _ _ hacts | closes _ hacts => exact hacts.writes
  | admitted | calls | neverCalls | timesOut | waits | returns => exact Or.inl rfl

theorem writes_lead (c : Core) : c.Writes c.lead.store := by
  unfold lead
  split
  · exact Or.inl rfl
  · exact Or.inr ⟨.resetProcessing c.now, rfl, rfl, rfl, fun _ _ h => nomatch h⟩

theorem Step.writes {c c' : Core} {m : Move} (h : c.Step m c') : c.Writes c'.store := by
  cases h with
  | keep | repaused | elected | elapsed | clockSet | leadLost | passedOver | ended =>
    exact Or.inl rfl
  | recorded tag owner deadline payload id hfresh =>
    exact Or.inr ⟨.insert id c.now ⟨tag, owner, payload, deadline⟩, rfl, hfresh, rfl,
      fun _ _ h => nomatch h⟩
  | acted hacts => exact hacts.writes
  | staleReset => exact Or.inr ⟨.resetStale c.now c.now, rfl, rfl, rfl, fun _ _ h => nomatch h⟩
  | opened => exact writes_lead c
  | @claimed e _ _ _ hcandidates _ hclaim =>
    refine Or.inr ⟨.claim c.now e.id, ?_, rfl, rfl, fun clock id heq => ?_⟩
    · simp [Store.after, hclaim]
    · cases heq
      exact ⟨_, hcandidates ▸ List.mem_cons_self, rfl⟩
  | worked _ hprogress => exact hprogress.writes

/-! ## Whose turn comes -/

section Turn

variable {c c' : Core} {call : Store.Call} {e : Event}

theorem Lists.mono (h : c'.candidates ⊆ c.candidates) {id : Uuid} (hid : c'.Lists id) :
    c.Lists id := by
  obtain ⟨x, hx, heq⟩ := hid
  exact ⟨x, h hx, heq⟩

/-- The turn of an event comes by a listing only: no call brings it. -/
theorem hasTurn_of_effectOn (h : c'.candidates ⊆ c.candidates) (hends : call.endsOnly = true)
    (hclaim : ∀ clock id, call = .claim clock id → c.Lists id)
    (hturn : c'.HasTurn (call.effectOn c.store e)) : c.HasTurn e := by
  rcases hturn with hleft | hlisted
  · by_cases hnew : e.status = .new
    · obtain ⟨clock, heq⟩ := Store.claim_of_leaves_new hends hnew hleft
      exact Or.inr (hclaim clock e.id heq)
    · exact Or.inl hnew
  · rw [Store.id_effectOn] at hlisted
    exact Or.inr (hlisted.mono h)

/-- The turn of an event that is just recorded has not come. -/
theorem Laned.not_hasTurn_of_recorded (h : c.Laned) (hcandidates : c'.candidates ⊆ c.candidates)
    (hfresh : call.isFresh c.store = true) (he : e ∈ call.recorded) : ¬ c'.HasTurn e := by
  rintro (hleft | ⟨x, hx, hid⟩)
  · exact hleft (Store.Call.status_of_mem_recorded he)
  · obtain ⟨y, hy, hyid⟩ := h.listed x (hcandidates hx)
    exact Store.Call.id_ne_of_mem_recorded hfresh he hy (hyid.trans hid)

theorem isTerminal_effectOn (s : Store) (call : Store.Call)
    (he : e.status.isTerminal = true) : (call.effectOn s e).status.isTerminal = true := by
  rw [Store.effectOn_of_isTerminal s he call]
  exact he

end Turn

/-- A move that lists nothing keeps the lanes. -/
theorem Laned.move {c c' : Core} (h : c.Laned) (hregistry : c'.registry = c.registry)
    (hcandidates : c'.candidates ⊆ c.candidates) (hwrites : c.Writes c'.store) : c'.Laned := by
  rcases hwrites with hsame | ⟨call, hstore, hfresh, hends, hclaim⟩
  · refine ⟨hsame ▸ h.ids, fun x hx => hsame ▸ h.listed x (hcandidates hx), ?_⟩
    rw [hsame, hregistry]
    refine h.alone.imp fun hab hlane ha hb => hab hlane ?_ ?_
    · exact ha.imp_right (Lists.mono hcandidates)
    · exact hb.imp_right (Lists.mono hcandidates)
  · refine ⟨hstore ▸ h.ids.after hfresh, fun x hx => ?_, ?_⟩
    · obtain ⟨e, he, hid⟩ := h.listed x (hcandidates hx)
      refine ⟨call.effectOn c.store e, ?_, by rw [Store.id_effectOn, hid]⟩
      rw [hstore, Store.mem_after h.ids]
      exact Or.inl ⟨e, he, rfl⟩
    · rw [hstore, hregistry]
      refine Store.pairwise_after h.ids h.alone ?_ ?_
      · intro a _ b _ _ hab hlane ha hb
        rw [Registry.sameLane_effectOn] at hlane
        have hended := hab hlane (hasTurn_of_effectOn hcandidates hends hclaim ha)
          (hasTurn_of_effectOn hcandidates hends hclaim hb)
        exact hended.imp (isTerminal_effectOn c.store call) (isTerminal_effectOn c.store call)
      · intro a _ b hb _ _ hturn
        exact absurd hturn (h.not_hasTurn_of_recorded hcandidates hfresh hb)

/-- Whatever has left `new` in the lane of a new event that is listed has ended. -/
theorem isTerminal_of_listed {s : Store} {r : Registry} {paused : List EventClass}
    {now : Instant} {a b : Event} (hlane : r.SameLane a b) (ha : a ∈ s.events)
    (hleft : a.status ≠ .new) (hb : b ∈ s.dispatchable (r.filterFor paused) now)
    (hnew : b.status = .new) : a.status.isTerminal = true := by
  obtain ⟨hkey, hknownA, hknownB⟩ := hlane
  rw [← r.isKnown_filterFor paused] at hknownA hknownB
  cases hstatus : a.status with
  | new => exact absurd hstatus hleft
  | processing => exact absurd hkey (Store.key_ne_of_processing hb hknownB ha hstatus)
  | pending => exact absurd hkey (Store.key_ne_of_pending hb hknownB hnew ha hstatus hknownA)
  | completed | failed => rfl

/-- Whose turn has come with a listing has left `new`, or is itself listed. -/
theorem Laned.left_or_listed {c c' : Core} (h : c.Laned) {filter : DispatchFilter}
    {now : Instant} (hlist : c'.candidates = c.store.dispatchable filter now) {e : Event}
    (he : e ∈ c.store.events) (hturn : c'.HasTurn e) :
    e.status ≠ .new ∨ e.status = .new ∧ e ∈ c.store.dispatchable filter now := by
  rcases hturn with hleft | ⟨x, hx, hid⟩
  · exact Or.inl hleft
  · rw [hlist] at hx
    rw [h.ids.eq_of_id_eq (Store.mem_of_mem_dispatchable hx).1 he hid] at hx
    by_cases hnew : e.status = .new
    · exact Or.inr ⟨hnew, hx⟩
    · exact Or.inl hnew

/-- A listing keeps the lanes. -/
theorem Laned.list {c c' : Core} (h : c.Laned) (hregistry : c'.registry = c.registry)
    (hstore : c'.store = c.store) (paused : List EventClass) (now : Instant)
    (hlist : c'.candidates = c.store.dispatchable (c.registry.filterFor paused) now) :
    c'.Laned := by
  refine ⟨hstore ▸ h.ids, fun x hx => ⟨x, ?_, rfl⟩, ?_⟩
  · rw [hlist] at hx
    rw [hstore]
    exact (Store.mem_of_mem_dispatchable hx).1
  · rw [hstore, hregistry]
    refine (h.ids.and h.alone).imp_of_mem fun {a b} ha hb hab hlane hturnA hturnB => ?_
    rcases h.left_or_listed hlist ha hturnA with hleftA | ⟨hnewA, hlistedA⟩
    · rcases h.left_or_listed hlist hb hturnB with hleftB | ⟨hnewB, hlistedB⟩
      · exact hab.2 hlane (Or.inl hleftA) (Or.inl hleftB)
      · exact Or.inl (isTerminal_of_listed hlane ha hleftA hlistedB hnewB)
    · rcases h.left_or_listed hlist hb hturnB with hleftB | ⟨hnewB, hlistedB⟩
      · exact Or.inr (isTerminal_of_listed hlane.symm hb hleftB hlistedA hnewA)
      · obtain ⟨hkey, hknownA, hknownB⟩ := hlane
        rw [← c.registry.isKnown_filterFor paused] at hknownA hknownB
        exact absurd hkey (Store.key_ne_of_both_listed hlistedA hlistedB
          (fun heq => hab.1 (congrArg Event.id heq)) hknownA hknownB)

theorem Laned.lead {c : Core} (h : c.Laned) : c.lead.Laned :=
  h.move c.registry_lead (fun _ hx => c.candidates_lead ▸ hx) (writes_lead c)

/-- Every move keeps the lanes. -/
theorem Laned.step {c c' : Core} {m : Move} (h : c.Laned) (hstep : c.Step m c') :
    c'.Laned := by
  have hwrites := hstep.writes
  cases hstep with
  | keep | repaused | elected | elapsed | clockSet | recorded | acted | staleReset | leadLost
  | worked | ended =>
    exact h.move rfl (List.Subset.refl _) hwrites
  | passedOver hcandidates | claimed hcandidates =>
    exact h.move rfl (hcandidates ▸ List.subset_cons_self _ _) hwrites
  | opened _ _ hlisting =>
    rcases hlisting with rfl | rfl
    · exact h.lead.move rfl (List.nil_subset _) (Or.inl rfl)
    · refine h.lead.list rfl rfl c.paused c.now ?_
      rw [c.registry_lead]

/-- An event leaves `new` only when its turn has come. -/
theorem Step.hasTurn_of_leaves_new {c c' : Core} {m : Move} (hstep : c.Step m c')
    (hids : c.store.DistinctIds) {e e' : Event} (he : e ∈ c.store.events)
    (he' : e' ∈ c'.store.events) (hid : e'.id = e.id) (hleft : e'.status ≠ .new) :
    c.HasTurn e := by
  rcases hstep.writes with hsame | ⟨call, hstore, hfresh, hends, hclaim⟩
  · rw [hsame] at he'
    rw [← hids.eq_of_id_eq he' he hid]
    exact Or.inl hleft
  · rw [hstore, Store.mem_after hids] at he'
    rcases he' with ⟨x, hx, rfl⟩ | hrecorded
    · rw [Store.id_effectOn] at hid
      rw [← hids.eq_of_id_eq hx he hid]
      exact hasTurn_of_effectOn (List.Subset.refl _) hends hclaim (Or.inl hleft)
    · exact absurd (Store.Call.status_of_mem_recorded hrecorded) hleft

end Core
end EventDispatch
