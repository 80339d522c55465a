import EventDispatch.Proofs.Store.Calls

/-!
# Exclusion of events with one key

**Input.** Calls of a store in any order, from the empty one on, by any number of
clients.  Recorded events get fresh identifiers, and a status is only ever set to
one in which an event has ended.

**Invariant.** Of two events with one key at most one is being run.  A claim looks
for another event of the key that is being run, and every other call can only
take an event out of `processing`.

**Results.** `not_both_processing`: whatever the calls, no two events are being run
under one key.
-/

namespace EventDispatch
namespace Store

/-- Of two events with one key at most one is being run. -/
def IsExclusive (s : Store) : Prop :=
  s.events.Pairwise fun a b =>
    a.key = b.key → ¬ (a.status = .processing ∧ b.status = .processing)

/-- The calls that clients make. -/
def isOrdinary (s : Store) (c : Call) : Bool := c.isFresh s && c.endsOnly

/-- An event that is being run after a call was being run before it, or the call
claims it while no other event of its key is being run. -/
theorem processing_or_claimed {s : Store} {e : Event} {c : Call} (hends : c.endsOnly = true)
    (h : (c.effectOn s e).status = .processing) :
    e.status = .processing ∨
      (∃ clock, c = .claim clock e.id) ∧
        ∀ x ∈ s.events, x.id ≠ e.id → x.status = .processing → x.key ≠ e.key := by
  rcases processing_of_effectOn h with hold | ⟨hclaim, hbusy⟩ | ⟨clock, rfl⟩
  · exact Or.inl hold
  · refine Or.inr ⟨hclaim, fun x hx hid hstatus hkey => ?_⟩
    simp only [isBusy, List.any_eq_false, Bool.and_eq_true, decide_eq_true_eq] at hbusy
    exact hbusy x hx ⟨⟨hid, hstatus⟩, hkey⟩
  · simp [Call.endsOnly, Status.isTerminal] at hends

/-- A call keeps the invariant. -/
theorem IsExclusive.after {s : Store} (h : s.IsExclusive) (hids : s.DistinctIds) {c : Call}
    (hends : c.endsOnly = true) : (s.after c).IsExclusive := by
  refine pairwise_after hids h ?_ ?_
  · rintro a ha b hb hid hab hkey ⟨hrunA, hrunB⟩
    rw [key_effectOn, key_effectOn] at hkey
    rcases processing_or_claimed hends hrunA with hA | ⟨⟨clock, rfl⟩, hfreeA⟩
    · rcases processing_or_claimed hends hrunB with hB | ⟨-, hfreeB⟩
      · exact hab hkey ⟨hA, hB⟩
      · exact hfreeB a ha hid hA hkey
    · rcases processing_or_claimed hends hrunB with hB | ⟨⟨clock', hclaim⟩, -⟩
      · exact hfreeA b hb (Ne.symm hid) hB hkey.symm
      · exact hid (Call.claim.inj hclaim).2
  · rintro a - b hb - ⟨-, hrunB⟩
    rw [Call.status_of_mem_recorded hb] at hrunB
    cases hrunB

theorem Reached.isExclusive {s : Store} (h : Reached isOrdinary s) :
    s.DistinctIds ∧ s.IsExclusive := by
  induction h with
  | empty => exact ⟨distinctIds_empty, List.Pairwise.nil⟩
  | call c _ hc ih =>
    obtain ⟨hfresh, hends⟩ := Bool.and_eq_true_iff.1 hc
    exact ⟨ih.1.after hfresh, ih.2.after ih.1 hends⟩

/-- Whatever the calls, no two events are being run under one key. -/
theorem not_both_processing {s : Store} (h : Reached isOrdinary s) :
    ∀ a ∈ s.events, ∀ b ∈ s.events, a.id ≠ b.id → a.key = b.key →
      ¬ (a.status = .processing ∧ b.status = .processing) := by
  intro a ha b hb hid
  obtain ⟨-, hexclusive⟩ := h.isExclusive
  have : Std.Symm fun a b : Event =>
      a.key = b.key → ¬ (a.status = .processing ∧ b.status = .processing) :=
    ⟨fun _ _ hab hkey hrun => hab hkey.symm hrun.symm⟩
  exact hexclusive.forall ha hb fun heq => hid (congrArg Event.id heq)

/-- Two events of one key, claimed by two clients; the second claim is granted only
once the first event has ended. -/
def contendedCalls : List Call :=
  [.insert (.ofSerial 0) .epoch ⟨"create:team:eu", "team-a", .null, .ofSeconds 300⟩,
    .insert (.ofSerial 1) .epoch ⟨"update:team:eu", "team-a", .null, .ofSeconds 300⟩,
    .claim .epoch (.ofSerial 0),
    .claim .epoch (.ofSerial 1),
    .setStatus .epoch (.ofSerial 0) .completed,
    .claim .epoch (.ofSerial 1)]

theorem not_both_processing_of_contendedCalls :
    ∃ s, Reached isOrdinary s ∧ s.events.map Event.status = [.completed, .processing] ∧
      ∀ a ∈ s.events, ∀ b ∈ s.events, a.id ≠ b.id → a.key = b.key →
        ¬ (a.status = .processing ∧ b.status = .processing) := by
  have hrun : (empty.afterAll? isOrdinary contendedCalls).map
      (fun s => s.events.map Event.status) = some [.completed, .processing] := by decide +kernel
  obtain ⟨s, hs, hstatus⟩ := Option.map_eq_some_iff.1 hrun
  have hreached : Reached isOrdinary s := Reached.empty.afterAll? hs
  exact ⟨s, hreached, hstatus, not_both_processing hreached⟩

end Store
end EventDispatch
