import EventDispatch.Proofs.Store.Ranking

/-!
# Keys do not interfere

**Input.** The events of one key with a known tag, among events of other keys and of
unknown tags (`Selection.isOf`).

**Idea.** Whether an event has to wait is decided by its own key among the keys in use and
the keys of pending events, so these lists may be cut down to that key.  Leaving out other
events neither changes the order of the rest (`filter_candidates`) nor takes away a key
that some event of the rest looks up (`filter_take`).

**Results.** The selected events of a key are those that are selected if there are no
others (`keys_do_not_interfere`).
-/

namespace EventDispatch
namespace Selection

/-- The event has the key, and a known tag. -/
def isOf (filter : DispatchFilter) (key : Key) (e : Event) : Bool :=
  filter.isKnown e.tag && e.key = key

variable {filter : DispatchFilter} {key : Key}

theorem isOf_iff {e : Event} :
    isOf filter key e = true ↔ filter.isKnown e.tag = true ∧ e.key = key := by
  simp [isOf]

/-- Events that are left out leave the others in order. -/
theorem filter_sortByAge (events : List Event) (p : Event → Bool) :
    (sortByAge events).filter p = sortByAge (events.filter p) := by
  have hplaces : (placesByAge events fun _ => true).filter (fun i => p (events.get i)) =
      placesByAge events p := by
    refine List.Pairwise.eq_of_mem_iff ((pairwise_placesByAge events _).filter _)
      (pairwise_placesByAge events p) fun i => ?_
    rw [List.mem_filter, mem_placesByAge, mem_placesByAge, and_iff_right rfl]
  calc (sortByAge events).filter p
      = ((placesByAge events fun _ => true).map events.get).filter p := by
        rw [map_placesByAge, List.filter_true]
    _ = ((placesByAge events fun _ => true).filter fun i => p (events.get i)).map events.get :=
        List.filter_map
    _ = sortByAge (events.filter p) := by rw [hplaces, map_placesByAge]

theorem filter_candidates (upcoming : List Event) (now : Instant) (p : Event → Bool) :
    (candidates upcoming now).filter p = candidates (upcoming.filter p) now := by
  unfold candidates
  rw [List.filter_append, filter_sortByAge, filter_sortByAge]
  simp only [List.filter_filter, Bool.and_comm]

theorem filter_pendingKeys (upcoming : List Event) :
    (pendingKeys upcoming filter).filter (fun k => k = key) =
      pendingKeys (upcoming.filter (isOf filter key)) filter := by
  unfold pendingKeys
  rw [List.filter_map, List.filter_filter, List.filter_filter]
  congr 1
  refine List.filter_congr fun e _ => ?_
  simp only [Function.comp, isOf]
  cases filter.isKnown e.tag <;> simp [Bool.and_comm]

/-- Whether an event has to wait is decided by its own key. -/
theorem mustWait_filter {taken pending : List Key} {e : Event} (hkey : e.key = key) :
    mustWait (taken.filter fun k => k = key) (pending.filter fun k => k = key) e =
      mustWait taken pending e := by
  simp [mustWait, List.contains_eq_mem, hkey]

/-- Of the events that are taken, those of a key are taken as if there were no others. -/
theorem filter_take (pending taken : List Key) (events : List Event) :
    (take filter pending taken events).filter (isOf filter key) =
      take filter (pending.filter fun k => k = key) (taken.filter fun k => k = key)
        (events.filter (isOf filter key)) := by
  induction events generalizing taken with
  | nil => rfl
  | cons e rest ih =>
    by_cases hof : isOf filter key e = true
    · obtain ⟨hknown, hkey⟩ := isOf_iff.1 hof
      have hused : (e.key :: taken).filter (fun k => k = key) =
          e.key :: taken.filter fun k => k = key := by
        simp [hkey]
      rw [List.filter_cons_of_pos hof]
      simp only [take, mustWait_filter hkey, hknown, Bool.not_true, Bool.false_eq_true, if_false]
      split
      · exact ih taken
      · split
        · exact ih taken
        · rw [List.filter_cons_of_pos hof, ih, hused]
    · rw [List.filter_cons_of_neg hof]
      simp only [take]
      split
      · exact ih taken
      · split
        · rw [List.filter_cons_of_neg hof, ih]
        · next hknown =>
          -- The key that it takes, if it does, is another one.
          have hother : e.key ≠ key := fun hkey => hof (isOf_iff.2 ⟨by simpa using hknown, hkey⟩)
          have hused : (e.key :: taken).filter (fun k => k = key) =
              taken.filter fun k => k = key := by
            simp [hother]
          split
          · exact ih taken
          · rw [List.filter_cons_of_neg hof, ih, hused]

/-- The selected events of a key are those that are selected from the events of the key
alone, in the same order: neither events of other keys nor events of unknown tags start,
delay or reorder them. -/
theorem keys_do_not_interfere (processing upcoming : List Event) (filter : DispatchFilter)
    (now : Instant) (key : Key) :
    (select processing upcoming filter now).filter (isOf filter key) =
      (select (processing.filter fun e => e.key = key) (upcoming.filter (isOf filter key))
        filter now).filter fun e => filter.isKnown e.tag := by
  have hidle : (processing.map Event.key).filter (fun k => k = key) =
      (processing.filter fun e => e.key = key).map Event.key := by
    rw [List.filter_map]
    rfl
  have halone : (select processing upcoming filter now).filter (isOf filter key) =
      select (processing.filter fun e => e.key = key) (upcoming.filter (isOf filter key))
        filter now := by
    unfold select
    rw [filter_take, filter_pendingKeys, filter_candidates, hidle]
  rw [← halone, List.filter_filter]
  refine List.filter_congr fun e _ => ?_
  simp only [isOf]
  cases filter.isKnown e.tag <;> simp

end Selection
end EventDispatch
