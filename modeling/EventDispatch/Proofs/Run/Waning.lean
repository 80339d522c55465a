import EventDispatch.Proofs.Run.Spending
import EventDispatch.Proofs.Run.Starting
import Mathlib.Algebra.Order.BigOperators.Group.List
import Mathlib.Algebra.Order.Ring.Nat

/-!
# The claims that are left

**Measure.** An event is good for one claim for each retry that the policy allows and one
more, less the retries that it has spent.  The run under way is not counted: a claim
takes one off, and to send the event back puts none on.  A store is good for the claims
of all its events (`Store.claimsLeft`).

**Results.** A store wanes (`Store.Wanes`) as its events are turned by the actions of
workers, and as they are claimed.  A claim of an event that has not used up its retries
makes the measure less.
-/

namespace EventDispatch

namespace Store

variable {s s' s'' : Store} {most : Int}

/-- The number of claims that the events are good for. -/
def claimsLeft (s : Store) (most : Int) : Nat := (s.events.map (Event.claimsLeft most)).sum

/-- The events are the same, and none is good for more claims. -/
def Wanes (s s' : Store) : Prop :=
  ∃ f : Event → Event, s'.events = s.events.map f ∧
    ∀ e ∈ s.events, (f e).id = e.id ∧ (f e).tag = e.tag ∧
      ∀ most, (f e).claimsLeft most ≤ e.claimsLeft most

theorem Wanes.refl (s : Store) : s.Wanes s :=
  ⟨fun e => e, (List.map_id' s.events).symm, fun _ _ => ⟨rfl, rfl, fun _ => Nat.le_refl _⟩⟩

theorem Wanes.trans (h : s.Wanes s') (h' : s'.Wanes s'') : s.Wanes s'' := by
  obtain ⟨f, hf, hkept⟩ := h
  obtain ⟨g, hg, hkept'⟩ := h'
  refine ⟨g ∘ f, by rw [hg, hf, List.map_map], fun e he => ?_⟩
  obtain ⟨hid, htag, hless⟩ := hkept e he
  obtain ⟨hid', htag', hless'⟩ := hkept' (f e) (hf ▸ List.mem_map_of_mem he)
  exact ⟨hid'.trans hid, htag'.trans htag, fun most => (hless' most).trans (hless most)⟩

theorem Wanes.ids (h : s.Wanes s') : s'.events.map Event.id = s.events.map Event.id := by
  obtain ⟨f, hf, hkept⟩ := h
  rw [hf, List.map_map]
  exact List.map_congr_left fun e he => (hkept e he).1

theorem Wanes.tags (h : s.Wanes s') {e' : Event} (he' : e' ∈ s'.events) :
    ∃ e ∈ s.events, e'.tag = e.tag := by
  obtain ⟨f, hf, hkept⟩ := h
  rw [hf] at he'
  obtain ⟨e, he, rfl⟩ := List.mem_map.1 he'
  exact ⟨e, he, (hkept e he).2.1⟩

theorem Wanes.claimsLeft_le (h : s.Wanes s') (most : Int) :
    s'.claimsLeft most ≤ s.claimsLeft most := by
  obtain ⟨f, hf, hkept⟩ := h
  unfold claimsLeft
  rw [hf, List.map_map]
  exact List.sum_le_sum fun e he => (hkept e he).2.2 most

theorem Revises.wanes {id : Uuid} {f : Event → Event} (h : s.Revises s' id f)
    (hless : ∀ most e, (f e).claimsLeft most ≤ e.claimsLeft most) : s.Wanes s' :=
  ⟨f, h.events, fun e _ => ⟨(h.same e).1, (h.same e).2.1, fun most => hless most e⟩⟩

end Store

/-- A claim takes one off. -/
theorem Event.claimsLeft_claimed {e : Event} (hready : e.status = .pending ∨ e.status = .new)
    (most : Int) (clock : Instant) :
    ({ e with status := .processing, updated := clock } : Event).claimsLeft most ≤
      e.claimsLeft most ∧
    (e.retries ≤ most →
      ({ e with status := .processing, updated := clock } : Event).claimsLeft most <
        e.claimsLeft most) := by
  rcases hready with hstatus | hstatus
  · simp only [claimsLeft, hstatus]
    omega
  · simp only [claimsLeft, hstatus]
    omega

namespace Store

variable {s : Store} {listed : List Event}

theorem wanes_claimed (h : s.DistinctIds) (clock : Instant)
    (hlisted : ∀ e ∈ listed, e ∈ s.events ∧ (e.status = .pending ∨ e.status = .new)) :
    s.Wanes (s.claimed clock listed) := by
  refine ⟨_, rfl, fun e he => ?_⟩
  split
  · next hid =>
    obtain ⟨x, hx, hxid⟩ := List.mem_map.1 hid
    obtain ⟨hmem, hready⟩ := hlisted x hx
    rw [h.eq_of_id_eq hmem he hxid] at hready
    exact ⟨rfl, rfl, fun most => (Event.claimsLeft_claimed hready most clock).1⟩
  · exact ⟨rfl, rfl, fun _ => Nat.le_refl _⟩

theorem claimsLeft_claimed_lt (h : s.DistinctIds) (clock : Instant) {most : Int}
    (hlisted : ∀ e ∈ listed, e ∈ s.events ∧ (e.status = .pending ∨ e.status = .new))
    {e : Event} (he : e ∈ listed) (hleft : e.retries ≤ most) :
    (s.claimed clock listed).claimsLeft most < s.claimsLeft most := by
  unfold claimsLeft claimed
  rw [List.map_map]
  refine List.sum_lt_sum _ _ (fun x hx => ?_) ⟨e, (hlisted e he).1, ?_⟩
  · simp only [Function.comp_apply]
    split
    · next hid =>
      obtain ⟨y, hy, hyid⟩ := List.mem_map.1 hid
      obtain ⟨hmem, hready⟩ := hlisted y hy
      rw [h.eq_of_id_eq hmem hx hyid] at hready
      exact (Event.claimsLeft_claimed hready most clock).1
    · exact Nat.le_refl _
  · simp only [Function.comp_apply, if_pos (List.mem_map_of_mem he)]
    exact (Event.claimsLeft_claimed (hlisted e he).2 most clock).2 hleft

end Store

end EventDispatch
