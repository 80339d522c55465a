import EventDispatch.Proofs.Run.Lanes
import EventDispatch.Proofs.Store.Lifecycle

/-!
# What lasts

**Input.** Any run of a service: whatever the loop, the workers and the callers do, and
whether the store is within reach or not.

**Results.** The store of a service only becomes later (`later_of_reaches`).  So an event
whose registration is answered with its identifier is stored from then on, about what it
was registered for (`lasts_of_registerEvent`).
-/

namespace EventDispatch

theorem Core.Writes.later {c : Core} {store : Store} (h : c.Writes store)
    (hids : c.store.DistinctIds) : c.store.Later store ∧ store.DistinctIds := by
  rcases h with hsame | ⟨call, hstore, hfresh, -, -⟩
  · rw [hsame]
    exact ⟨.refl _, hids⟩
  · rw [hstore]
    exact ⟨Store.later_after hids call, hids.after hfresh⟩

namespace Service

variable {allowed : Service → Move → Bool} {s s' : Service}

/-- The store of a service only becomes later. -/
theorem later_of_reaches (hfresh : ∀ s m, allowed s m = true → s.givesFresh m = true)
    (hids : s.dispatcher.store.DistinctIds) (h : Reaches allowed s s') :
    s.dispatcher.store.Later s'.dispatcher.store ∧ s'.dispatcher.store.DistinctIds := by
  induction h with
  | refl => exact ⟨.refl _, hids⟩
  | move m _ hm hafter ih =>
    obtain ⟨hlater, hids'⟩ := ih
    obtain ⟨hlater', hids''⟩ := (step_of_after? (hfresh _ _ hm) hafter).writes.later hids'
    exact ⟨hlater.trans hlater', hids''⟩

/-- A registration that is answered with an identifier records the event under it. -/
theorem store_of_registerEvent {tag : Tag} {owner : String} {deadline : Duration}
    {payload : Except Json.EncodeError Json} {id : Uuid}
    (h : s.registerEvent tag owner deadline payload = (.ok id, s')) :
    ∃ value, payload = .ok value ∧ id = s.dispatcher.nextId ∧
      s'.dispatcher.store =
        s.dispatcher.store.insert id s.dispatcher.now ⟨tag, owner, value, deadline⟩ := by
  unfold registerEvent at h
  split at h
  · cases h
  · next value =>
    dsimp only at h
    split at h
    · cases h
    · next store hinsert =>
      obtain ⟨hid, rfl⟩ := Prod.mk.inj h
      cases hid
      refine ⟨value, rfl, rfl, ?_⟩
      have hmatch := Access.eq_ok_of_bind hinsert
      split at hmatch
      · cases hmatch
      · rw [← Except.ok.inj (Access.eq_ok_of_bind hmatch)]
        unfold trigger
        split <;> rfl

/-- An event whose registration is answered with its identifier is stored from then on. -/
theorem lasts_of_registerEvent {tag : Tag} {owner : String} {deadline : Duration}
    {payload : Except Json.EncodeError Json} {id : Uuid} {t : Service}
    (hfresh : ∀ s m, allowed s m = true → s.givesFresh m = true)
    (hids : s'.dispatcher.store.DistinctIds)
    (h : s.registerEvent tag owner deadline payload = (.ok id, s'))
    (hreach : Reaches allowed s' t) :
    ∃ value, payload = .ok value ∧ ∃ e ∈ t.dispatcher.store.events,
      e.id = id ∧ e.tag = tag ∧ e.owner = owner ∧ e.payload = value := by
  obtain ⟨value, rfl, -, hstore⟩ := store_of_registerEvent h
  refine ⟨value, rfl, ?_⟩
  have hmem : (NewEvent.recorded ⟨tag, owner, value, deadline⟩ id s.dispatcher.now) ∈
      s'.dispatcher.store.events := by
    rw [hstore]
    exact List.mem_append_right _ List.mem_cons_self
  obtain ⟨e, he, hlater⟩ := (later_of_reaches hfresh hids hreach).1.exists_mem hmem
  exact ⟨e, he, hlater.id, hlater.tag, hlater.owner, hlater.payload⟩

theorem distinctIds_of_reaches (hfresh : ∀ s m, allowed s m = true → s.givesFresh m = true)
    {registry : Registry} {settings : Settings} {access : Access} {election : Election}
    {now : Instant}
    (h : Reaches allowed (.ofDispatcher (.initial registry settings access election now)) s) :
    s.dispatcher.store.DistinctIds :=
  (later_of_reaches hfresh Store.distinctIds_empty h).2

end Service
end EventDispatch
