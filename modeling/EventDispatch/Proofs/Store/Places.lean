import Mathlib.Data.List.FinRange
import Mathlib.Data.List.Sort

/-!
# Places of a list

**Input.** A list in which one item may stand several times, so that its members are spoken of
by the places where they stand.

**Windows.** The first places with a property are as many as there is room for, in order, and
none that is left out goes before one of them (`IsWindow`).

**Results.** Sorting a list that was in some order keeps this order among items of one key
(`pairwise_stableSort`).  The first places of an ordered list form a window (`isWindow_take`),
and there is only one window of a size (`IsWindow.unique`).
-/

namespace EventDispatch

section Places

variable {ι : Type}

theorem map_get_filter_finRange (l : List ι) (p : ι → Bool) :
    ((List.finRange l.length).filter fun i => p (l.get i)).map l.get = l.filter p := by
  conv_rhs => rw [← List.map_get_finRange l]
  exact List.filter_map.symm

/-- The places with a property, in their order. -/
theorem pairwise_filter_finRange {n : Nat} (p : Fin n → Bool) :
    ((List.finRange n).filter p).Pairwise (· < ·) :=
  (List.pairwise_lt_finRange n).filter p

/-- Sorting puts items in the order of their keys, and those of one key stay in the order in
which they were. -/
theorem pairwise_stableSort {key : ι → Int} {le : ι → ι → Bool}
    (hle : ∀ a b, le a b = true ↔ key a ≤ key b) {before : ι → ι → Prop} {l : List ι}
    (h : l.Pairwise before) :
    (l.mergeSort le).Pairwise fun a b => key a < key b ∨ key a = key b ∧ before a b := by
  have htrans : ∀ a b c, le a b = true → le b c = true → le a c = true := by
    simp only [hle]
    omega
  have htotal : ∀ a b, (le a b || le b a) = true := by
    simp only [Bool.or_eq_true, hle]
    omega
  induction l with
  | nil => simp
  | cons x rest ih =>
    obtain ⟨hfront, hrest⟩ := List.pairwise_cons.1 h
    -- The item in front is put before all others but those of lower keys.
    obtain ⟨lower, upper, hput, hsorted, hbelow⟩ := List.mergeSort_cons htrans htotal x rest
    have hkeys := List.pairwise_mergeSort htrans htotal (x :: rest)
    have hperm := List.mergeSort_perm rest le
    have hinduct := ih hrest
    rw [hsorted] at hinduct hperm
    rw [hput] at hkeys ⊢
    obtain ⟨hlow, hup, hacross⟩ := List.pairwise_append.1 hinduct
    refine List.pairwise_append.2 ⟨hlow, List.pairwise_cons.2 ⟨?_, hup⟩, ?_⟩
    · intro b hb
      have hkey := (hle x b).1 (List.rel_of_pairwise_cons (List.pairwise_append.1 hkeys).2.1 hb)
      have hplace := hfront b (hperm.mem_iff.1 (List.mem_append_right lower hb))
      rcases Int.lt_or_eq_of_le hkey with hkey | hkey
      · exact Or.inl hkey
      · exact Or.inr ⟨hkey, hplace⟩
    · intro a ha b hb
      rcases List.mem_cons.1 hb with rfl | hb
      · have hkey : ¬ key b ≤ key a := by simpa [← hle] using hbelow a ha
        exact Or.inl (Int.lt_of_not_ge hkey)
      · exact hacross a ha b hb

end Places

section Windows

variable {ι : Type} {before : ι → ι → Prop} {P : ι → Prop} {room : Nat}

/-- The first items with a property: they are in order and not more than there is room for, and
an item that is left out finds no room, and goes before none of them. -/
structure IsWindow (before : ι → ι → Prop) (P : ι → Prop) (room : Nat) (window : List ι) :
    Prop where
  ordered : window.Pairwise before
  belongs : ∀ i ∈ window, P i
  fits : window.length ≤ room
  rest : ∀ i, P i → i ∉ window → window.length = room ∧ ∀ j ∈ window, before j i

/-- The first items of a list in order are a window of its members. -/
theorem isWindow_take {l : List ι} (h : l.Pairwise before) (hmem : ∀ i, i ∈ l ↔ P i)
    (room : Nat) : IsWindow before P room (l.take room) := by
  refine ⟨h.sublist (List.take_sublist room l), fun i hi => (hmem i).1 (List.mem_of_mem_take hi),
    List.length_take_le room l, fun i hi hout => ?_⟩
  have hdrop : i ∈ l.drop room := by
    have hall : i ∈ l.take room ++ l.drop room := by
      rw [List.take_append_drop]
      exact (hmem i).2 hi
    exact (List.mem_append.1 hall).resolve_left hout
  rw [← List.take_append_drop room l] at h
  refine ⟨?_, fun j hj => (List.pairwise_append.1 h).2.2 j hj i hdrop⟩
  have hpos := List.length_pos_of_mem hdrop
  rw [List.length_drop] at hpos
  rw [List.length_take]
  omega

namespace IsWindow

variable {window other : List ι} (hasymm : ∀ i j, before i j → ¬ before j i)
include hasymm

theorem nodup (h : IsWindow before P room window) : window.Nodup := by
  refine h.ordered.imp fun {i j} hbefore heq => ?_
  subst heq
  exact hasymm i i hbefore hbefore

/-- What stands in a window stands in any other of that size. -/
theorem subset (h : IsWindow before P room window) (hother : IsWindow before P room other) :
    window ⊆ other := by
  intro i hi
  by_contra hout
  -- The other window is full without it, so it holds one that this window leaves out.
  obtain ⟨hfull, hahead⟩ := hother.rest i (h.belongs i hi) hout
  have hmissing : ∃ j ∈ other, j ∉ window := by
    by_contra hall
    have hsub : i :: other ⊆ window := by
      refine List.cons_subset.2 ⟨hi, fun j hj => ?_⟩
      by_contra hj'
      exact hall ⟨j, hj, hj'⟩
    have hlength := (List.subperm_of_subset
      (List.nodup_cons.2 ⟨hout, hother.nodup hasymm⟩) hsub).length_le
    have hfits := h.fits
    rw [List.length_cons] at hlength
    omega
  obtain ⟨j, hj, hjout⟩ := hmissing
  exact hasymm i j ((h.rest j (hother.belongs j hj) hjout).2 i hi) (hahead j hj)

/-- There is one window of a size. -/
theorem unique (h : IsWindow before P room window) (hother : IsWindow before P room other) :
    window = other := by
  have hperm : window.Perm other := (List.perm_ext_iff_of_nodup (h.nodup hasymm)
    (hother.nodup hasymm)).2 fun _ =>
      ⟨fun hi => h.subset hasymm hother hi, fun hi => hother.subset hasymm h hi⟩
  refine hperm.eq_of_pairwise (fun i j _ _ hij hji => ?_) h.ordered hother.ordered
  exact absurd hji (hasymm i j hij)

end IsWindow
end Windows
end EventDispatch
