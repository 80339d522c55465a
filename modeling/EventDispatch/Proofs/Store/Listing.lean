import EventDispatch.Proofs.Store.Ranking

/-!
# What an operator lists

**Input.** Any store, the owner whose events are listed and the number of items that is asked
for.

**Order.** Of two events the one that was changed later comes first, and of two that were
changed at one instant the one that was recorded later (`Store.Fresher`).  Of two rows the one
that was written later comes first.

**Results.** The listed events of an owner are a window of the owner's events in this order
(`exists_window_eventsOf`), and the listed rows of an event are a window of its rows
(`exists_window_logsOf`).  So each listed event comes with the last of its own rows
(`exists_windows_trailsOf`).
-/

namespace EventDispatch
namespace Store

section Order

variable {events : List Event} {i j : Fin events.length}

/-- The event of a place was changed later, or at the same instant and recorded later. -/
def Fresher (events : List Event) (i j : Fin events.length) : Prop :=
  (events.get j).updated < (events.get i).updated ∨
    (events.get j).updated = (events.get i).updated ∧ j < i

instance : DecidableRel (Fresher events) := fun _ _ => instDecidableOr

theorem Fresher.asymm (h : Fresher events i j) : ¬ Fresher events j i := by
  simp only [Fresher, Instant.lt_iff, Instant.eq_iff] at h ⊢
  omega

/-- The places of the events of an owner, in the order in which they are listed. -/
def placesOf (events : List Event) (owner : String) : List (Fin events.length) :=
  ((List.finRange events.length).filter fun i =>
    (events.get i).owner = owner).reverse.mergeSort fun i j =>
      (events.get j).updated ≤ (events.get i).updated

theorem mem_placesOf {owner : String} :
    i ∈ placesOf events owner ↔ (events.get i).owner = owner := by
  simp [placesOf]

theorem map_placesOf (events : List Event) (owner : String) :
    (placesOf events owner).map events.get =
      (events.filter fun e => e.owner = owner).reverse.mergeSort fun a b =>
        b.updated ≤ a.updated := by
  rw [← map_get_filter_finRange events, ← List.map_reverse]
  exact List.map_mergeSort fun _ _ _ _ => rfl

/-- The sort does not move events that were changed at one instant, and they were turned
around before it. -/
theorem pairwise_placesOf (events : List Event) (owner : String) :
    (placesOf events owner).Pairwise (Fresher events) := by
  have hbehind : ((List.finRange events.length).filter fun i =>
      (events.get i).owner = owner).reverse.Pairwise fun i j => j < i :=
    List.pairwise_reverse.2 (pairwise_filter_finRange _)
  have hlast : ∀ i j : Fin events.length,
      decide ((events.get j).updated ≤ (events.get i).updated) = true ↔
        -(events.get i).updated.nanos ≤ -(events.get j).updated.nanos := fun i j => by
    rw [decide_eq_true_iff, Instant.le_iff, Int.neg_le_neg_iff]
  refine (pairwise_stableSort hlast hbehind).imp fun {i j} hfresh => ?_
  simp only [Fresher, Instant.lt_iff, Instant.eq_iff]
  omega

end Order

variable (s : Store)

/-- The first events of an owner in the order of a listing. -/
def LastEvents (owner : String) (room : Nat) (window : List (Fin s.events.length)) : Prop :=
  IsWindow (Fresher s.events) (fun i => (s.events.get i).owner = owner) room window

/-- The last rows of an event, in reverse. -/
def LastRows (id : Uuid) (room : Nat) (window : List (Fin s.trail.length)) : Prop :=
  IsWindow (fun a b => b < a) (fun a => (s.trail.get a).event = id) room window

theorem LastEvents.unique {s : Store} {owner : String} {room : Nat}
    {window other : List (Fin s.events.length)} (h : s.LastEvents owner room window)
    (hother : s.LastEvents owner room other) : window = other :=
  IsWindow.unique (fun _ _ => Fresher.asymm) h hother

theorem LastRows.unique {s : Store} {id : Uuid} {room : Nat}
    {window other : List (Fin s.trail.length)} (h : s.LastRows id room window)
    (hother : s.LastRows id room other) : window = other :=
  IsWindow.unique (fun _ _ => lt_asymm) h hother

theorem exists_window_eventsOf (owner : String) (limit : Int) :
    ∃ window, s.LastEvents owner limit.toNat window ∧
      s.eventsOf owner limit = window.map s.events.get := by
  refine ⟨(placesOf s.events owner).take limit.toNat,
    isWindow_take (pairwise_placesOf s.events owner) (fun _ => mem_placesOf) _, ?_⟩
  rw [List.map_take, map_placesOf]
  rfl

theorem exists_window_logsOf (id : Uuid) (limit : Int) :
    ∃ window, s.LastRows id limit.toNat window ∧
      s.logsOf id limit = window.map s.trail.get := by
  have hordered := List.pairwise_reverse.2
    (pairwise_filter_finRange fun a => decide ((s.trail.get a).event = id))
  refine ⟨_, isWindow_take hordered (fun a => by simp) limit.toNat, ?_⟩
  rw [logsOf, List.filter_reverse, List.map_take, List.map_reverse,
    map_get_filter_finRange s.trail fun row => decide (row.event = id)]

/-- The listed events are the first of the owner's events, and the rows that come with an event
are the last of its rows. -/
theorem exists_windows_trailsOf (owner : String) (limit : Int) :
    ∃ (window : List (Fin s.events.length))
      (rows : Fin s.events.length → List (Fin s.trail.length)),
      s.LastEvents owner limit.toNat window ∧
      (∀ i, s.LastRows (s.events.get i).id limit.toNat (rows i)) ∧
      s.trailsOf owner limit =
        window.map fun i => (s.events.get i, (rows i).map s.trail.get) := by
  obtain ⟨window, hwindow, hevents⟩ := s.exists_window_eventsOf owner limit
  choose rows hrows hlogs using fun i => s.exists_window_logsOf (s.events.get i).id limit
  refine ⟨window, rows, hwindow, hrows, ?_⟩
  rw [trailsOf, hevents, List.map_map]
  exact List.map_congr_left fun i _ => congrArg (Prod.mk (s.events.get i)) (hlogs i)

end Store
end EventDispatch
