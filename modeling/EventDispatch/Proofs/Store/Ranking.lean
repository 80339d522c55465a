import EventDispatch.Proofs.Store.Places
import EventDispatch.Proofs.Store.Selecting

/-!
# Which events are selected, and in which order

**Input.** The events being run, the events that are new or pending, a filter of tags
and the time of a cycle.  One event may be listed several times, so the rules speak of
places in the list.

**Order.** A place goes before another one if its event is older, or if it is as old and
stands in front of the other (`Selection.Older`).  The places of pending events go before
those of new ones (`Selection.Precedes`).

**Rules.** An event that is not paused, and whose tag is unknown, is selected if it is new
or overdue.  Of those with a known tag and one key that is not in use, the first overdue
one is selected; if there is none, the first new one, as long as no pending event has the
key (`Selection.Picks`).

**Results.** Places in the order of their age are strictly in order, so that they are
known by their members (`pairwise_placesByAge`).  Whoever goes through places in order
takes one if no other of its key that may be taken is before it (`exists_take`).  The
selected places are those that the rules pick, in order (`select_picks`).
-/

namespace EventDispatch

theorem Instant.eq_iff {a b : Instant} : a = b ↔ a.nanos = b.nanos :=
  ⟨congrArg nanos, ext⟩

namespace Selection

/-! ## Places in order -/

section Places

/-- The event of a place is older, or as old and in front of the other. -/
def Older (events : List Event) (i j : Fin events.length) : Prop :=
  (events.get i).created < (events.get j).created ∨
    (events.get i).created = (events.get j).created ∧ i < j

/-- Retries go before new events, and older ones before younger ones. -/
def Precedes (events : List Event) (i j : Fin events.length) : Prop :=
  (events.get i).status = .pending ∧ (events.get j).status = .new ∨
    (events.get i).status = (events.get j).status ∧ Older events i j

/-- Places by age; those of one age stay in order. -/
def sortPlaces (events : List Event) (places : List (Fin events.length)) :
    List (Fin events.length) :=
  places.mergeSort fun i j => (events.get i).created ≤ (events.get j).created

/-- The places of the events with a property, oldest first. -/
def placesByAge (events : List Event) (p : Event → Bool) : List (Fin events.length) :=
  sortPlaces events ((List.finRange events.length).filter fun i => p (events.get i))

/-- The places of the candidates, in the order in which they are considered. -/
def ranking (events : List Event) (now : Instant) : List (Fin events.length) :=
  placesByAge events (fun e => e.status = .pending && e.isOverdue now) ++
    placesByAge events fun e => e.status = .new

variable {events : List Event} {i j : Fin events.length} {now : Instant}

theorem Older.asymm (h : Older events i j) : ¬ Older events j i := by
  simp only [Older, Instant.lt_iff, Instant.eq_iff] at h ⊢
  omega

theorem older_or_older (hne : i ≠ j) : Older events i j ∨ Older events j i := by
  have hplace : (i : Nat) ≠ j := fun heq => hne (Fin.ext heq)
  simp only [Older, Instant.lt_iff, Instant.eq_iff, Fin.lt_def]
  omega

instance : Std.Irrefl (Older events) := ⟨fun _ h => h.asymm h⟩

instance : Std.Antisymm (Older events) := ⟨fun _ _ h h' => absurd h' h.asymm⟩

theorem Precedes.asymm (h : Precedes events i j) : ¬ Precedes events j i := by
  rintro (⟨hpending, hnew⟩ | ⟨hsame, holder⟩)
  · rcases h with ⟨hpending', -⟩ | ⟨hsame, -⟩
    · rw [hpending'] at hnew
      cases hnew
    · rw [hsame, hpending] at hnew
      cases hnew
  · rcases h with ⟨hpending, hnew⟩ | ⟨-, holder'⟩
    · rw [hpending, hnew] at hsame
      cases hsame
    · exact holder.asymm holder'

theorem mem_placesByAge {p : Event → Bool} :
    i ∈ placesByAge events p ↔ p (events.get i) = true := by
  simp [placesByAge, sortPlaces]

theorem map_placesByAge (p : Event → Bool) :
    (placesByAge events p).map events.get = sortByAge (events.filter p) := by
  rw [← map_get_filter_finRange events p]
  exact List.map_mergeSort fun _ _ _ _ => rfl

/-- Sorting by age leaves the places of one age in order. -/
theorem pairwise_sortPlaces {places : List (Fin events.length)} (h : places.Pairwise (· < ·)) :
    (sortPlaces events places).Pairwise (Older events) := by
  have hages : ∀ i j : Fin events.length,
      decide ((events.get i).created ≤ (events.get j).created) = true ↔
        (events.get i).created.nanos ≤ (events.get j).created.nanos := fun i j => by
    rw [decide_eq_true_iff, Instant.le_iff]
  refine (pairwise_stableSort hages h).imp fun {i j} hold => ?_
  rwa [Older, Instant.lt_iff, Instant.eq_iff]

theorem pairwise_placesByAge (events : List Event) (p : Event → Bool) :
    (placesByAge events p).Pairwise (Older events) :=
  pairwise_sortPlaces (pairwise_filter_finRange _)

theorem mem_ranking :
    i ∈ ranking events now ↔
      (events.get i).status = .pending ∧ (events.get i).isOverdue now = true ∨
        (events.get i).status = .new := by
  simp only [ranking, List.mem_append, mem_placesByAge, Bool.and_eq_true, decide_eq_true_eq]

theorem map_ranking (events : List Event) (now : Instant) :
    (ranking events now).map events.get = candidates events now := by
  simp only [ranking, List.map_append, map_placesByAge]
  rfl

theorem pairwise_ranking (events : List Event) (now : Instant) :
    (ranking events now).Pairwise (Precedes events) := by
  refine List.pairwise_append.2 ⟨?_, ?_, ?_⟩
  · refine (pairwise_placesByAge events _).imp_of_mem fun {i j} hi hj holder => Or.inr ⟨?_, holder⟩
    simp only [mem_placesByAge, Bool.and_eq_true, decide_eq_true_eq] at hi hj
    rw [hi.1, hj.1]
  · refine (pairwise_placesByAge events _).imp_of_mem fun {i j} hi hj holder => Or.inr ⟨?_, holder⟩
    simp only [mem_placesByAge, decide_eq_true_eq] at hi hj
    rw [hi, hj]
  · intro i hi j hj
    simp only [mem_placesByAge, Bool.and_eq_true, decide_eq_true_eq] at hi hj
    exact Or.inl ⟨hi.1, hj⟩

end Places

/-! ## Going through places in order -/

section Taking

variable {ι : Type} {filter : DispatchFilter} {pending taken : List Key}

/-- The event has a known tag that is not paused, and does not have to wait from the start. -/
def Stands (filter : DispatchFilter) (pending taken : List Key) (e : Event) : Prop :=
  filter.isPaused e.tag = false ∧ filter.isKnown e.tag = true ∧ mustWait taken pending e = false

theorem mustWait_cons (key : Key) (e : Event) :
    mustWait (key :: taken) pending e = false ↔
      e.key ≠ key ∧ mustWait taken pending e = false := by
  simp [mustWait, and_assoc]

theorem stands_cons {key : Key} {e : Event} :
    Stands filter pending (key :: taken) e ↔ e.key ≠ key ∧ Stands filter pending taken e := by
  unfold Stands
  rw [mustWait_cons]
  constructor
  · rintro ⟨hunpaused, hknown, hkey, hfree⟩
    exact ⟨hkey, hunpaused, hknown, hfree⟩
  · rintro ⟨hkey, hunpaused, hknown, hfree⟩
    exact ⟨hunpaused, hknown, hkey, hfree⟩

/-- An event in front that does not stand is taken only if its tag is unknown, and is in
nobody's way. -/
theorem take_cons_of_not_stands {e : Event} {rest : List Event}
    (h : ¬ Stands filter pending taken e) :
    take filter pending taken (e :: rest) =
      if filter.isPaused e.tag = false ∧ filter.isKnown e.tag = false then
        e :: take filter pending taken rest
      else take filter pending taken rest := by
  simp only [take]
  cases hpaused : filter.isPaused e.tag with
  | true => simp
  | false =>
    cases hknown : filter.isKnown e.tag with
    | false => simp
    | true =>
      cases hwait : mustWait taken pending e with
      | true => simp
      | false => exact absurd ⟨hpaused, hknown, hwait⟩ h

/-- The places that are taken: each event that is not paused, unless its tag is known and
it has to wait or comes behind one of its key that stands. -/
theorem exists_take (filter : DispatchFilter) (pending taken : List Key)
    {before : ι → ι → Prop} (hasymm : ∀ i j, before i j → ¬ before j i) (f : ι → Event)
    {places : List ι} (hplaces : places.Pairwise before) :
    ∃ picked : List ι, picked.Sublist places ∧
      take filter pending taken (places.map f) = picked.map f ∧
      ∀ i ∈ places, i ∈ picked ↔ filter.isPaused (f i).tag = false ∧
        (filter.isKnown (f i).tag = true → mustWait taken pending (f i) = false ∧
          ∀ j ∈ places, before j i → Stands filter pending taken (f j) →
            (f j).key ≠ (f i).key) := by
  induction places generalizing taken with
  | nil => exact ⟨[], List.Sublist.slnil, rfl, fun i hi => nomatch hi⟩
  | cons x rest ih =>
    obtain ⟨hfront, hrest⟩ := List.pairwise_cons.1 hplaces
    have hfirst : ∀ j ∈ x :: rest, ¬ before j x := by
      intro j hj hbefore
      rcases List.mem_cons.1 hj with rfl | hj
      · exact hasymm j j hbefore hbefore
      · exact hasymm x j (hfront j hj) hbefore
    have hnot : x ∉ rest := fun hmem => hfirst x List.mem_cons_self (hfront x hmem)
    by_cases hstands : Stands filter pending taken (f x)
    · obtain ⟨hunpaused, hknown, hfree⟩ := hstands
      obtain ⟨picked, hsub, htake, hmem⟩ := ih ((f x).key :: taken) hrest
      refine ⟨x :: picked, hsub.cons_cons x, ?_, ?_⟩
      · simp [take, hunpaused, hknown, hfree, htake]
      · intro i hi
        rcases List.mem_cons.1 hi with rfl | hi
        · refine iff_of_true List.mem_cons_self ⟨hunpaused, fun _ => ⟨hfree, ?_⟩⟩
          exact fun j hj hbefore => absurd hbefore (hfirst j hj)
        · have hne : i ≠ x := fun heq => hnot (heq ▸ hi)
          rw [List.mem_cons, or_iff_right hne, hmem i hi]
          -- The key of the one in front is in use from here on.
          refine and_congr_right fun _ => imp_congr_right fun _ => ?_
          rw [mustWait_cons]
          constructor
          · rintro ⟨⟨hkey, hfreeI⟩, hclear⟩
            refine ⟨hfreeI, fun j hj hbefore hstandsJ hsame => ?_⟩
            rcases List.mem_cons.1 hj with rfl | hj
            · exact hkey hsame.symm
            · exact hclear j hj hbefore (stands_cons.2 ⟨hsame ▸ hkey, hstandsJ⟩) hsame
          · rintro ⟨hfreeI, hclear⟩
            refine ⟨⟨?_, hfreeI⟩, fun j hj hbefore hstandsJ => ?_⟩
            · exact Ne.symm (hclear x List.mem_cons_self (hfront i hi) ⟨hunpaused, hknown, hfree⟩)
            · exact hclear j (List.mem_cons_of_mem x hj) hbefore (stands_cons.1 hstandsJ).2
    · obtain ⟨picked, hsub, htake, hmem⟩ := ih taken hrest
      have hskip : ∀ i, (∀ j ∈ x :: rest, before j i → Stands filter pending taken (f j) →
          (f j).key ≠ (f i).key) ↔ ∀ j ∈ rest, before j i → Stands filter pending taken (f j) →
            (f j).key ≠ (f i).key := by
        intro i
        rw [List.forall_mem_cons, and_iff_right fun _ hstandsX => absurd hstandsX hstands]
      rw [List.map_cons, take_cons_of_not_stands hstands, htake]
      by_cases hreported : filter.isPaused (f x).tag = false ∧ filter.isKnown (f x).tag = false
      · rw [if_pos hreported]
        refine ⟨x :: picked, hsub.cons_cons x, rfl, fun i hi => ?_⟩
        rcases List.mem_cons.1 hi with rfl | hi
        · refine iff_of_true List.mem_cons_self ⟨hreported.1, fun hknown => ?_⟩
          rw [hreported.2] at hknown
          cases hknown
        · have hne : i ≠ x := fun heq => hnot (heq ▸ hi)
          rw [List.mem_cons, or_iff_right hne, hmem i hi, hskip]
      · rw [if_neg hreported]
        refine ⟨picked, hsub.cons x, rfl, fun i hi => ?_⟩
        rcases List.mem_cons.1 hi with rfl | hi
        · refine iff_of_false (fun hi => hnot (hsub.subset hi)) ?_
          rintro ⟨hunpaused, hfree⟩
          cases hknown : filter.isKnown (f i).tag with
          | false => exact hreported ⟨hunpaused, hknown⟩
          | true => exact hstands ⟨hunpaused, hknown, (hfree hknown).1⟩
        · rw [hmem i hi, hskip]

end Taking

/-! ## The rules -/

section Rules

variable (processing upcoming : List Event) (filter : DispatchFilter) (now : Instant)

/-- A retry of the key that is due, with a known tag that is not paused. -/
def Retries (key : Key) (i : Fin upcoming.length) : Prop :=
  (upcoming.get i).key = key ∧ filter.isKnown (upcoming.get i).tag = true ∧
    filter.isPaused (upcoming.get i).tag = false ∧ (upcoming.get i).status = .pending ∧
      (upcoming.get i).isOverdue now = true

/-- A new event of the key, with a known tag that is not paused. -/
def Starts (key : Key) (i : Fin upcoming.length) : Prop :=
  (upcoming.get i).key = key ∧ filter.isKnown (upcoming.get i).tag = true ∧
    filter.isPaused (upcoming.get i).tag = false ∧ (upcoming.get i).status = .new

/-- Of the places with a property, the one that goes before all others. -/
def IsFirst (P : Fin upcoming.length → Prop) (i : Fin upcoming.length) : Prop :=
  P i ∧ ∀ j, P j → j ≠ i → Older upcoming i j

/-- The places that the rules pick. -/
inductive Picks (i : Fin upcoming.length) : Prop
  | reported :
      filter.isPaused (upcoming.get i).tag = false →
      filter.isKnown (upcoming.get i).tag = false →
      (upcoming.get i).status = .new ∨
        (upcoming.get i).status = .pending ∧ (upcoming.get i).isOverdue now = true →
      Picks i
  | retried (key : Key) :
      (∀ e ∈ processing, e.key ≠ key) →
      IsFirst upcoming (Retries upcoming filter now key) i →
      Picks i
  | started (key : Key) :
      (∀ e ∈ processing, e.key ≠ key) →
      (∀ e ∈ upcoming, e.status = .pending → filter.isKnown e.tag = true → e.key ≠ key) →
      IsFirst upcoming (Starts upcoming filter key) i →
      Picks i

variable {processing upcoming filter now}

theorem mustWait_eq_false_iff {e : Event} :
    mustWait (processing.map Event.key) (pendingKeys upcoming filter) e = false ↔
      (∀ x ∈ processing, x.key ≠ e.key) ∧
        (e.status = .new → ∀ x ∈ upcoming, x.status = .pending → filter.isKnown x.tag = true →
          x.key ≠ e.key) := by
  simp only [mustWait, pendingKeys, Bool.or_eq_false_iff, Bool.and_eq_false_imp,
    List.contains_eq_mem, decide_eq_false_iff_not, decide_eq_true_eq, List.mem_map,
    List.mem_filter, Bool.and_eq_true, not_exists, not_and]
  constructor
  · rintro ⟨hidle, hwaits⟩
    exact ⟨hidle, fun hnew x hx hpending hknown => hwaits hnew x ⟨hx, hpending, hknown⟩⟩
  · rintro ⟨hidle, hwaits⟩
    exact ⟨hidle, fun hnew x hx => hwaits hnew x hx.1 hx.2.1 hx.2.2⟩

/-- What goes through the ranking takes the places that the rules pick. -/
theorem picks_iff {i : Fin upcoming.length} :
    Picks processing upcoming filter now i ↔
      i ∈ ranking upcoming now ∧ filter.isPaused (upcoming.get i).tag = false ∧
        (filter.isKnown (upcoming.get i).tag = true →
          mustWait (processing.map Event.key) (pendingKeys upcoming filter)
              (upcoming.get i) = false ∧
            ∀ j ∈ ranking upcoming now, Precedes upcoming j i →
              Stands filter (pendingKeys upcoming filter) (processing.map Event.key)
                (upcoming.get j) →
              (upcoming.get j).key ≠ (upcoming.get i).key) := by
  constructor
  · intro hpicks
    cases hpicks with
    | reported hunpaused hunknown hready =>
      refine ⟨mem_ranking.2 hready.symm, hunpaused, fun hknown => ?_⟩
      rw [hunknown] at hknown
      cases hknown
    | retried key hidle hfirst =>
      obtain ⟨⟨rfl, hknown, hunpaused, hpending, hdue⟩, hleads⟩ := hfirst
      refine ⟨mem_ranking.2 (Or.inl ⟨hpending, hdue⟩), hunpaused, fun _ => ⟨?_, ?_⟩⟩
      · refine mustWait_eq_false_iff.2 ⟨hidle, fun hnew => ?_⟩
        rw [hpending] at hnew
        cases hnew
      · rintro j hj (⟨-, hnew⟩ | ⟨hsame, holder⟩) ⟨hunpausedJ, hknownJ, -⟩ hkey
        · rw [hpending] at hnew
          cases hnew
        · have hpendingJ : (upcoming.get j).status = .pending := hsame.trans hpending
          have hdueJ : (upcoming.get j).isOverdue now = true := by
            rcases mem_ranking.1 hj with ⟨-, hdueJ⟩ | hnewJ
            · exact hdueJ
            · rw [hpendingJ] at hnewJ
              cases hnewJ
          have hne : j ≠ i := fun heq => holder.asymm (heq ▸ holder)
          exact holder.asymm (hleads j ⟨hkey, hknownJ, hunpausedJ, hpendingJ, hdueJ⟩ hne)
    | started key hidle hnone hfirst =>
      obtain ⟨⟨rfl, hknown, hunpaused, hnew⟩, hleads⟩ := hfirst
      refine ⟨mem_ranking.2 (Or.inr hnew), hunpaused, fun _ => ⟨?_, ?_⟩⟩
      · exact mustWait_eq_false_iff.2 ⟨hidle, fun _ => hnone⟩
      · rintro j hj (⟨hpendingJ, -⟩ | ⟨hsame, holder⟩) ⟨hunpausedJ, hknownJ, -⟩ hkey
        · exact hnone _ (List.get_mem _ _) hpendingJ hknownJ hkey
        · have hne : j ≠ i := fun heq => holder.asymm (heq ▸ holder)
          exact holder.asymm (hleads j ⟨hkey, hknownJ, hunpausedJ, hsame.trans hnew⟩ hne)
  · rintro ⟨hranked, hunpaused, hfree⟩
    have hready := mem_ranking.1 hranked
    cases hknown : filter.isKnown (upcoming.get i).tag with
    | false => exact .reported hunpaused hknown hready.symm
    | true =>
      obtain ⟨hclear, hahead⟩ := hfree hknown
      obtain ⟨hidle, hnone⟩ := mustWait_eq_false_iff.1 hclear
      rcases hready with ⟨hpending, hdue⟩ | hnew
      · refine .retried _ hidle ⟨⟨rfl, hknown, hunpaused, hpending, hdue⟩, ?_⟩
        rintro j ⟨hkey, hknownJ, hunpausedJ, hpendingJ, hdueJ⟩ hne
        refine (older_or_older hne.symm).resolve_right fun holder => ?_
        refine hahead j (mem_ranking.2 (Or.inl ⟨hpendingJ, hdueJ⟩))
          (Or.inr ⟨hpendingJ.trans hpending.symm, holder⟩) ⟨hunpausedJ, hknownJ, ?_⟩ hkey
        refine mustWait_eq_false_iff.2 ⟨hkey ▸ hidle, fun hnewJ => ?_⟩
        rw [hpendingJ] at hnewJ
        cases hnewJ
      · refine .started _ hidle (hnone hnew) ⟨⟨rfl, hknown, hunpaused, hnew⟩, ?_⟩
        rintro j ⟨hkey, hknownJ, hunpausedJ, hnewJ⟩ hne
        refine (older_or_older hne.symm).resolve_right fun holder => ?_
        refine hahead j (mem_ranking.2 (Or.inr hnewJ)) (Or.inr ⟨hnewJ.trans hnew.symm, holder⟩)
          ⟨hunpausedJ, hknownJ, ?_⟩ hkey
        exact mustWait_eq_false_iff.2 ⟨hkey ▸ hidle, fun _ => hkey ▸ hnone hnew⟩

/-- The selected events stand in the places that the rules pick, each of them once: retries
go before new events, older ones before younger ones, and those of one age stay in order. -/
theorem select_picks (processing upcoming : List Event) (filter : DispatchFilter)
    (now : Instant) :
    ∃ picked : List (Fin upcoming.length),
      select processing upcoming filter now = picked.map upcoming.get ∧
      picked.Pairwise (Precedes upcoming) ∧ picked.Nodup ∧
      ∀ i, i ∈ picked ↔ Picks processing upcoming filter now i := by
  have hranked := pairwise_ranking upcoming now
  obtain ⟨picked, hsub, htake, hmem⟩ := exists_take filter (pendingKeys upcoming filter)
    (processing.map Event.key) (fun _ _ => Precedes.asymm) upcoming.get hranked
  refine ⟨picked, ?_, hranked.sublist hsub, ?_, fun i => ?_⟩
  · rw [← htake, map_ranking]
    rfl
  · refine (hranked.sublist hsub).imp fun {i j} hbefore heq => ?_
    subst heq
    exact hbefore.asymm hbefore
  · rw [picks_iff]
    constructor
    · intro hi
      exact ⟨hsub.subset hi, (hmem i (hsub.subset hi)).1 hi⟩
    · rintro ⟨hi, hfree⟩
      exact (hmem i hi).2 hfree

end Rules
end Selection
end EventDispatch
