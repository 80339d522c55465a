import EventDispatch.Dispatch.Registry
import EventDispatch.Proofs.Store.Calls

/-!
# What a listing leaves out

**Input.** The events of a store, a filter of tags, and the time of a cycle.

**Algorithm.** `Selection.take` goes through the candidates and remembers the keys
that are in use.  A key stays in use once it is, so what the first candidate of a
key finds holds for every later one.

**Results.** Every listed event is new, or pending and overdue.  Of the events with
a known tag, none is listed under a key that is being run, no new one behind a
pending event of its key, no two under one key, and no new one behind an older new
one of its key, unless the tag of that one is paused.
-/

namespace EventDispatch
namespace Selection

variable {filter : DispatchFilter} {pending taken : List Key} {events : List Event}

theorem take_sublist (filter : DispatchFilter) (pending taken : List Key)
    (events : List Event) : (take filter pending taken events).Sublist events := by
  induction events generalizing taken with
  | nil => exact List.Sublist.slnil
  | cons e rest ih =>
    simp only [take]
    split
    · exact (ih taken).cons e
    · split
      · exact (ih taken).cons_cons e
      · split
        · exact (ih taken).cons e
        · exact (ih (e.key :: taken)).cons_cons e

/-- Whoever is taken did not have to wait, and the keys in use were so before. -/
theorem not_mustWait_of_mem_take {e : Event} (he : e ∈ take filter pending taken events)
    (hknown : filter.isKnown e.tag = true) : mustWait taken pending e = false := by
  induction events generalizing taken with
  | nil => cases he
  | cons x rest ih =>
    simp only [take] at he
    split at he
    · exact ih he
    · split at he
      · next hunknown =>
        rcases List.mem_cons.1 he with rfl | he
        · simp [hknown] at hunknown
        · exact ih he
      · split at he
        · exact ih he
        · next hfree =>
          rcases List.mem_cons.1 he with rfl | he
          · simpa using hfree
          · have hlater := ih he
            simp only [mustWait, List.contains_cons, Bool.or_eq_false_iff] at hlater ⊢
            exact ⟨hlater.1.2, hlater.2⟩

theorem key_not_mem_of_mem_take {e : Event} (he : e ∈ take filter pending taken events)
    (hknown : filter.isKnown e.tag = true) : e.key ∉ taken := by
  have hfree := not_mustWait_of_mem_take he hknown
  simp only [mustWait, Bool.or_eq_false_iff] at hfree
  simpa using hfree.1

/-- Whoever is taken is not paused. -/
theorem isPaused_eq_false_of_mem_take {e : Event} (he : e ∈ take filter pending taken events) :
    filter.isPaused e.tag = false := by
  induction events generalizing taken with
  | nil => cases he
  | cons x rest ih =>
    simp only [take] at he
    split at he
    · exact ih he
    · next hpaused =>
      have hx : filter.isPaused x.tag = false := by simpa using hpaused
      split at he
      · rcases List.mem_cons.1 he with rfl | he
        · exact hx
        · exact ih he
      · split at he
        · exact ih he
        · rcases List.mem_cons.1 he with rfl | he
          · exact hx
          · exact ih he

/-- A candidate of a known tag that is not paused is taken, or it had to wait from the
start, or one with its key is taken. -/
theorem mem_take_or_blocked {e : Event} (he : e ∈ events)
    (hunpaused : filter.isPaused e.tag = false) (hknown : filter.isKnown e.tag = true) :
    e ∈ take filter pending taken events ∨ mustWait taken pending e = true ∨
      ∃ x ∈ take filter pending taken events, filter.isKnown x.tag = true ∧ x.key = e.key := by
  induction events generalizing taken with
  | nil => cases he
  | cons x rest ih =>
    simp only [take]
    split
    · next hpaused =>
      rcases List.mem_cons.1 he with rfl | he
      · simp [hunpaused] at hpaused
      · exact ih he
    · split
      · next hunknown =>
        rcases List.mem_cons.1 he with rfl | he
        · simp [hknown] at hunknown
        · rcases ih he with hmem | hwait | ⟨y, hy, hyknown, hkey⟩
          · exact Or.inl (List.mem_cons_of_mem x hmem)
          · exact Or.inr (Or.inl hwait)
          · exact Or.inr (Or.inr ⟨y, List.mem_cons_of_mem x hy, hyknown, hkey⟩)
      · next hxknown =>
        split
        · next hxwait =>
          rcases List.mem_cons.1 he with rfl | he
          · exact Or.inr (Or.inl hxwait)
          · exact ih he
        · rcases List.mem_cons.1 he with rfl | he
          · exact Or.inl List.mem_cons_self
          · -- What waits behind the taken key alone is blocked by the one that took it.
            rcases ih he with hmem | hwait | ⟨y, hy, hyknown, hkey⟩
            · exact Or.inl (List.mem_cons_of_mem x hmem)
            · by_cases hkey : x.key = e.key
              · exact Or.inr (Or.inr ⟨x, List.mem_cons_self, by simpa using hxknown, hkey⟩)
              · have hother : (e.key == x.key) = false := by simpa using Ne.symm hkey
                simp only [mustWait, List.contains_cons, hother, Bool.false_or] at hwait
                exact Or.inr (Or.inl hwait)
            · exact Or.inr (Or.inr ⟨y, List.mem_cons_of_mem x hy, hyknown, hkey⟩)

/-- No two events of known tags are taken under one key. -/
theorem pairwise_key_take (filter : DispatchFilter) (pending taken : List Key)
    (events : List Event) :
    (take filter pending taken events).Pairwise fun a b =>
      filter.isKnown a.tag = true → filter.isKnown b.tag = true → a.key ≠ b.key := by
  induction events generalizing taken with
  | nil => exact List.Pairwise.nil
  | cons e rest ih =>
    simp only [take]
    split
    · exact ih taken
    · split
      · next hunknown =>
        refine List.Pairwise.cons (fun b _ hknown => ?_) (ih taken)
        simp [hknown] at hunknown
      · split
        · exact ih taken
        · refine List.Pairwise.cons (fun b hb _ hknown heq => ?_) (ih (e.key :: taken))
          exact key_not_mem_of_mem_take hb hknown (heq ▸ List.mem_cons_self)

/-- A new event is not taken behind another one of its key, whether that one is
taken or has to wait itself. -/
theorem not_mem_take_of_behind {a b : Event} (hdistinct : events.Nodup)
    (hbehind : [a, b].Sublist events) (hkey : a.key = b.key)
    (ha : a.status = .new) (hb : b.status = .new)
    (hunpaused : filter.isPaused a.tag = false)
    (hknownA : filter.isKnown a.tag = true) (hknownB : filter.isKnown b.tag = true) :
    b ∉ take filter pending taken events := by
  induction events generalizing taken with
  | nil => cases hbehind
  | cons e rest ih =>
    obtain ⟨hnot, hrest⟩ := List.nodup_cons.1 hdistinct
    rcases List.sublist_cons_iff.1 hbehind with hlater | ⟨l, heq, hl⟩
    · -- Both come later, and the event in front of them is not the second one.
      have hmem : b ∈ rest := hlater.subset (List.mem_cons_of_mem a List.mem_cons_self)
      have hne : b ≠ e := fun heq => hnot (heq ▸ hmem)
      simp only [take]
      split
      · exact ih hrest hlater
      · split
        · exact List.not_mem_cons_of_ne_of_not_mem hne (ih hrest hlater)
        · split
          · exact ih hrest hlater
          · exact List.not_mem_cons_of_ne_of_not_mem hne (ih hrest hlater)
    · -- The first one is in front: its key is in use or waited for from here on.
      obtain ⟨rfl, rfl⟩ := List.cons.inj heq
      have hne : b ≠ a := fun heq => hnot (heq ▸ hl.subset List.mem_cons_self)
      simp only [take, hunpaused, hknownA, Bool.not_true, Bool.false_eq_true, if_false]
      split
      · next hwait =>
        intro hb'
        have hfree := not_mustWait_of_mem_take hb' hknownB
        simp only [mustWait, ha, hkey] at hwait
        simp only [mustWait, hb] at hfree
        exact absurd hwait (by simpa using hfree)
      · refine List.not_mem_cons_of_ne_of_not_mem hne fun hb' => ?_
        exact key_not_mem_of_mem_take hb' hknownB (hkey ▸ List.mem_cons_self)

/-- Events in the order of their recording and of their age stay in this order. -/
theorem sublist_sortByAge {a b : Event} (h : [a, b].Sublist events)
    (hage : a.created ≤ b.created) : [a, b].Sublist (sortByAge events) := by
  refine List.pair_sublist_mergeSort ?_ ?_ (by simpa using hage) h
  · intro a b c hab hbc
    simp only [decide_eq_true_eq, Instant.le_iff] at hab hbc ⊢
    exact Int.le_trans hab hbc
  · intro a b
    simp only [Bool.or_eq_true, decide_eq_true_eq, Instant.le_iff]
    exact Int.le_total a.created.nanos b.created.nanos

end Selection

namespace Store

variable {s : Store} {filter : DispatchFilter} {now : Instant}

theorem mem_candidates {upcoming : List Event} {e : Event} :
    e ∈ Selection.candidates upcoming now ↔
      e ∈ upcoming ∧ (e.status = .pending ∧ e.isOverdue now = true ∨ e.status = .new) := by
  simp only [Selection.candidates, Selection.sortByAge, List.mem_append, List.mem_mergeSort,
    List.mem_filter, Bool.and_eq_true, decide_eq_true_eq]
  exact and_or_left.symm

/-- A listed event is one of the store that is new, or pending and overdue. -/
theorem mem_of_mem_dispatchable {e : Event} (he : e ∈ s.dispatchable filter now) :
    e ∈ s.events ∧ (e.status = .pending ∧ e.isOverdue now = true ∨ e.status = .new) := by
  obtain ⟨hmem, hstatus⟩ := mem_candidates.1 ((Selection.take_sublist _ _ _ _).subset he)
  exact ⟨(List.mem_filter.1 hmem).1, hstatus⟩

/-- Nothing is listed under a key that is being run. -/
theorem key_ne_of_processing {a b : Event} (hb : b ∈ s.dispatchable filter now)
    (hknown : filter.isKnown b.tag = true) (ha : a ∈ s.events)
    (hrun : a.status = .processing) : a.key ≠ b.key := by
  intro hkey
  refine Selection.key_not_mem_of_mem_take hb hknown ?_
  rw [← hkey]
  exact List.mem_map_of_mem (List.mem_filter.2 ⟨ha, by simpa using hrun⟩)

/-- No new event is listed behind a pending one of its key, due or not. -/
theorem key_ne_of_pending {a b : Event} (hb : b ∈ s.dispatchable filter now)
    (hknown : filter.isKnown b.tag = true) (hnew : b.status = .new) (ha : a ∈ s.events)
    (hwait : a.status = .pending) (hknownA : filter.isKnown a.tag = true) : a.key ≠ b.key := by
  intro hkey
  have hfree := Selection.not_mustWait_of_mem_take hb hknown
  simp only [Selection.mustWait, Bool.or_eq_false_iff, hnew] at hfree
  have hpending : b.key ∉ Selection.pendingKeys
      (s.events.filter fun e => e.status = .new || e.status = .pending) filter := by
    simpa using hfree.2
  refine hpending ?_
  rw [← hkey]
  refine List.mem_map_of_mem (List.mem_filter.2 ⟨List.mem_filter.2 ⟨ha, ?_⟩, ?_⟩)
  · simp [hwait]
  · simp [hwait, hknownA]

/-- An event that is ready to run is listed, unless an event of its key is being run or
is listed, or it is new and a pending event has its key. -/
theorem listed_or_blocked {e : Event} (he : e ∈ s.events)
    (hready : e.status = .pending ∧ e.isOverdue now = true ∨ e.status = .new)
    (hunpaused : filter.isPaused e.tag = false) (hknown : filter.isKnown e.tag = true) :
    e ∈ s.dispatchable filter now ∨
      (∃ x ∈ s.events, x.status = .processing ∧ x.key = e.key) ∨
      (∃ x ∈ s.dispatchable filter now, filter.isKnown x.tag = true ∧ x.key = e.key) ∨
      e.status = .new ∧
        ∃ x ∈ s.events, x.status = .pending ∧ filter.isKnown x.tag = true ∧ x.key = e.key := by
  have hupcoming : e ∈ s.events.filter fun e => e.status = .new || e.status = .pending := by
    refine List.mem_filter.2 ⟨he, ?_⟩
    rcases hready with ⟨hpending, -⟩ | hnew
    · simp [hpending]
    · simp [hnew]
  rcases Selection.mem_take_or_blocked (mem_candidates.2 ⟨hupcoming, hready⟩) hunpaused hknown
      with hmem | hwait | hblocked
  · exact Or.inl hmem
  · simp only [Selection.mustWait, Bool.or_eq_true, Bool.and_eq_true, decide_eq_true_eq,
      List.contains_iff_mem] at hwait
    rcases hwait with htaken | ⟨hnew, hpending⟩
    · obtain ⟨x, hx, hkey⟩ := List.mem_map.1 htaken
      obtain ⟨hmem, hrun⟩ := List.mem_filter.1 hx
      exact Or.inr (Or.inl ⟨x, hmem, by simpa using hrun, hkey⟩)
    · obtain ⟨x, hx, hkey⟩ := List.mem_map.1 hpending
      obtain ⟨hmem, hwaits⟩ := List.mem_filter.1 hx
      obtain ⟨hstatus, hxknown⟩ : x.status = .pending ∧ filter.isKnown x.tag = true := by
        simpa using hwaits
      exact Or.inr (Or.inr (Or.inr
        ⟨hnew, x, (List.mem_filter.1 hmem).1, hstatus, hxknown, hkey⟩))
  · exact Or.inr (Or.inr (Or.inl hblocked))

theorem nodup_candidates {upcoming : List Event} (h : upcoming.Nodup) :
    (Selection.candidates upcoming now).Nodup := by
  unfold Selection.candidates Selection.sortByAge
  refine List.nodup_append.2 ⟨?_, ?_, ?_⟩
  · exact (List.mergeSort_perm _ _).nodup_iff.2 (h.filter _)
  · exact (List.mergeSort_perm _ _).nodup_iff.2 (h.filter _)
  · rintro a ha b hb rfl
    simp only [List.mem_mergeSort, List.mem_filter, Bool.and_eq_true, decide_eq_true_eq] at ha hb
    rw [ha.2.1] at hb
    cases hb.2

theorem DistinctIds.nodup (h : s.DistinctIds) : s.events.Nodup :=
  h.imp fun hid heq => hid (congrArg Event.id heq)

/-- No two events of known tags are listed under one key. -/
theorem key_ne_of_both_listed {a b : Event} (ha : a ∈ s.dispatchable filter now)
    (hb : b ∈ s.dispatchable filter now) (hne : a ≠ b)
    (hknownA : filter.isKnown a.tag = true) (hknownB : filter.isKnown b.tag = true) :
    a.key ≠ b.key := by
  have : Std.Symm fun a b : Event =>
      filter.isKnown a.tag = true → filter.isKnown b.tag = true → a.key ≠ b.key :=
    ⟨fun _ _ hab hb ha => Ne.symm (hab ha hb)⟩
  exact (Selection.pairwise_key_take _ _ _ _).forall ha hb hne hknownA hknownB

/-- No event is listed twice. -/
theorem pairwise_id_dispatchable (h : s.DistinctIds) (filter : DispatchFilter) (now : Instant) :
    (s.dispatchable filter now).Pairwise fun a b => a.id ≠ b.id := by
  have hnodup : (s.dispatchable filter now).Nodup :=
    (nodup_candidates (h.nodup.filter _)).sublist (Selection.take_sublist _ _ _ _)
  refine hnodup.imp_of_mem fun {a b} ha hb hne hid => hne ?_
  exact h.eq_of_id_eq (mem_of_mem_dispatchable ha).1 (mem_of_mem_dispatchable hb).1 hid

/-- No new event is listed behind an older new one of its key. -/
theorem not_listed_of_behind {a b : Event} (hids : s.DistinctIds)
    (hbehind : [a, b].Sublist s.events) (hage : a.created ≤ b.created) (hkey : a.key = b.key)
    (ha : a.status = .new) (hb : b.status = .new)
    (hunpaused : filter.isPaused a.tag = false)
    (hknownA : filter.isKnown a.tag = true) (hknownB : filter.isKnown b.tag = true) :
    b ∉ s.dispatchable filter now := by
  refine Selection.not_mem_take_of_behind (nodup_candidates (hids.nodup.filter _)) ?_ hkey ha hb
    hunpaused hknownA hknownB
  refine List.Sublist.trans ?_ (List.sublist_append_right _ _)
  refine Selection.sublist_sortByAge ?_ hage
  have hkept := (hbehind.filter fun e : Event => e.status = .new || e.status = .pending).filter
    fun e : Event => e.status = .new
  simpa [ha, hb] using hkept

end Store

/-- A registered tag is known to the filter of a cycle, and no other is. -/
theorem Registry.isKnown_filterFor (r : Registry) (paused : List EventClass) (tag : Tag) :
    (r.filterFor paused).isKnown tag = r.contains tag := by
  have hlookup : ∀ entries : List (Tag × Entry),
      (entries.map Prod.fst).contains tag = (entries.lookup tag).isSome := by
    intro entries
    induction entries with
    | nil => rfl
    | cons head rest ih =>
      obtain ⟨t, entry⟩ := head
      rw [List.map_cons, List.contains_cons, List.lookup_cons, ih]
      cases h : tag == t <;> simp
  exact hlookup r.entries

/-- While no class is paused, no tag is. -/
theorem Registry.isPaused_filterFor_nil (r : Registry) (tag : Tag) :
    (r.filterFor []).isPaused tag = false := by
  simp [filterFor, DispatchFilter.isPaused, tagsIn]

end EventDispatch
