import EventDispatch.Proofs.Dispatch.Routing
import Mathlib.Data.List.Induction
import Mathlib.Data.List.Nodup

/-!
# The views of a registry

**Input.** Any registrations, one after the other: of a handler for any tag under any class,
or for a known kind under the class of the kind.  Tags may be repeated in any order.

**Rule.** Of the registrations of a tag the last one decides (`Registration.last?`), for
every view of the registry alike.

**Invariant.** The tags of the entries are strictly ascending (`Registry.Ascending`), so each
tag has one entry, whatever was registered before.

**Results.** A registry has exactly the entries of the last registrations
(`find?_ofRegistrations`).  Its views answer accordingly, and the tags of classes apart are
apart, so that they divide all tags (`views_agree`).
-/

namespace EventDispatch

/-- A call that registers a handler. -/
inductive Registration where
  /-- For a tag, under any class. -/
  | ofTag (tag : Tag) (eventClass : EventClass) (handler : Handler)
  /-- For a known kind, under the class of the kind. -/
  | ofKind (kind : EventKind) (handler : Handler)

namespace Registration

def tag : Registration → Tag
  | ofTag tag _ _ => tag
  | ofKind kind _ => kind.tag

def entry : Registration → Entry
  | ofTag _ eventClass handler => ⟨eventClass, handler⟩
  | ofKind kind handler => ⟨kind.eventClass, handler⟩

/-- The last of the registrations of a tag. -/
def last? (xs : List Registration) (tag : Tag) : Option Registration :=
  (xs.filter fun x => x.tag = tag).getLast?

theorem last?_concat (xs : List Registration) (x : Registration) (tag : Tag) :
    last? (xs ++ [x]) tag = if tag = x.tag then some x else last? xs tag := by
  unfold last?
  rw [List.filter_append]
  split
  · next htag => simp [htag]
  · next hne => simp [Ne.symm hne]

theorem last?_eq_none_iff {xs : List Registration} {tag : Tag} :
    last? xs tag = none ↔ ∀ x ∈ xs, x.tag ≠ tag := by
  simp [last?]

end Registration

/-- The classes that are in none of these sets. -/
def EventClass.outside (parts : List (List EventClass)) : List EventClass :=
  all.filter fun c => parts.all fun part => !part.contains c

theorem EventClass.mem_outside {parts : List (List EventClass)} {c : EventClass} :
    c ∈ outside parts ↔ ∀ part ∈ parts, c ∉ part := by
  simp [outside, mem_all]

namespace Registry

/-- The registry after one more registration. -/
def enter (r : Registry) : Registration → Registry
  | .ofTag tag eventClass handler => r.register tag eventClass handler
  | .ofKind kind handler => r.registerKind kind handler

/-- The registry after registrations, one after the other. -/
def ofRegistrations (xs : List Registration) : Registry := xs.foldl enter .empty

/-- The tags of the entries are strictly ascending. -/
def Ascending (r : Registry) : Prop := r.entries.Pairwise fun x y => x.1 < y.1

section Entering

variable {r : Registry} {x : Registration} {tag : Tag} {entry : Entry}
  {entries : List (Tag × Entry)}

theorem mem_insertEntry {item : Tag × Entry} (h : item ∈ insertEntry tag entry entries) :
    item = (tag, entry) ∨ item ∈ entries := by
  induction entries with
  | nil => exact Or.inl (List.mem_singleton.1 h)
  | cons head rest ih =>
    simp only [insertEntry] at h
    split at h
    · exact List.mem_cons.1 h
    · split at h
      · exact (List.mem_cons.1 h).imp_right (List.mem_cons_of_mem head)
      · rcases List.mem_cons.1 h with rfl | h
        · exact Or.inr List.mem_cons_self
        · exact (ih h).imp_right (List.mem_cons_of_mem head)

/-- An entry is put in the place of its tag. -/
theorem pairwise_insertEntry (h : entries.Pairwise fun x y => x.1 < y.1) :
    (insertEntry tag entry entries).Pairwise fun x y => x.1 < y.1 := by
  induction entries with
  | nil => exact List.pairwise_singleton _ _
  | cons head rest ih =>
    obtain ⟨hhead, hrest⟩ := List.pairwise_cons.1 h
    simp only [insertEntry]
    split
    · next hbefore =>
      refine List.pairwise_cons.2 ⟨fun item hitem => ?_, h⟩
      rcases List.mem_cons.1 hitem with rfl | hitem
      · exact hbefore
      · exact String.lt_trans hbefore (hhead item hitem)
    · next hnotBefore =>
      split
      · next hsame => exact List.pairwise_cons.2 ⟨hsame ▸ hhead, hrest⟩
      · next hother =>
        refine List.pairwise_cons.2 ⟨fun item hitem => ?_, ih hrest⟩
        rcases mem_insertEntry hitem with rfl | hitem
        · exact (Std.lt_trichotomy tag head.1).resolve_left hnotBefore |>.resolve_left hother
        · exact hhead item hitem

theorem enter_eq (r : Registry) (x : Registration) :
    r.enter x = r.register x.tag x.entry.eventClass x.entry.handler := by
  cases x <;> rfl

theorem Ascending.enter (h : r.Ascending) (x : Registration) : (r.enter x).Ascending := by
  rw [enter_eq]
  exact pairwise_insertEntry h

theorem find?_enter : (r.enter x).find? tag = if tag = x.tag then some x.entry else r.find? tag := by
  rw [enter_eq, find?_register]

/-- The entries are what is found under their tags. -/
theorem Ascending.mem_entries_iff (h : r.Ascending) :
    (tag, entry) ∈ r.entries ↔ r.find? tag = some entry := by
  unfold find?
  rw [List.lookup_eq_some_iff]
  constructor
  · intro hmem
    obtain ⟨before, after, hsplit⟩ := List.append_of_mem hmem
    refine ⟨before, after, hsplit, fun item hitem => ?_⟩
    have hbefore : item.1 < tag := by
      unfold Ascending at h
      rw [hsplit] at h
      exact (List.pairwise_append.1 h).2.2 item hitem _ List.mem_cons_self
    have hne : tag ≠ item.1 := fun heq => String.lt_irrefl tag (heq ▸ hbefore)
    simpa using hne
  · rintro ⟨before, after, hsplit, -⟩
    rw [hsplit]
    exact List.mem_append_right _ List.mem_cons_self

theorem Ascending.pairwise_tags (h : r.Ascending) : r.tags.Pairwise (· < ·) :=
  List.pairwise_map.2 h

theorem Ascending.pairwise_tagsIn (h : r.Ascending) (classes : List EventClass) :
    (r.tagsIn classes).Pairwise (· < ·) :=
  List.pairwise_map.2 (h.filter _)

theorem nodup_of_ascending {tags : List Tag} (h : tags.Pairwise (· < ·)) : tags.Nodup := by
  refine List.Pairwise.imp (fun {a b} hlt (heq : a = b) => ?_) h
  exact String.lt_irrefl b (heq ▸ hlt)

theorem Ascending.mem_tags_iff (h : r.Ascending) :
    tag ∈ r.tags ↔ ∃ entry, r.find? tag = some entry := by
  simp only [tags, List.mem_map, Prod.exists, exists_and_right, exists_eq_right, h.mem_entries_iff]

theorem Ascending.mem_tagsIn_iff (h : r.Ascending) {classes : List EventClass} :
    tag ∈ r.tagsIn classes ↔ ∃ entry, r.find? tag = some entry ∧ entry.eventClass ∈ classes := by
  simp only [tagsIn, List.mem_map, List.mem_filter, List.contains_iff_mem, Prod.exists,
    exists_and_right, exists_eq_right, h.mem_entries_iff]

/-- Classes apart have tags apart. -/
theorem Ascending.disjoint_tagsIn (h : r.Ascending) {classes others : List EventClass}
    (hapart : classes.Disjoint others) : (r.tagsIn classes).Disjoint (r.tagsIn others) := by
  intro tag hclasses hothers
  obtain ⟨entry, hentry, hclass⟩ := h.mem_tagsIn_iff.1 hclasses
  obtain ⟨entry', hentry', hother⟩ := h.mem_tagsIn_iff.1 hothers
  obtain rfl : entry = entry' := Option.some.inj (hentry.symm.trans hentry')
  exact hapart hclass hother

/-- Sets of classes apart and the classes outside of them divide the tags. -/
theorem Ascending.perm_tags (h : r.Ascending) {parts : List (List EventClass)}
    (hapart : parts.Pairwise List.Disjoint) :
    (parts.flatMap r.tagsIn ++ r.tagsIn (EventClass.outside parts)).Perm r.tags := by
  have hparts : (parts.flatMap r.tagsIn).Nodup :=
    List.nodup_flatMap.2 ⟨fun part _ => nodup_of_ascending (h.pairwise_tagsIn part),
      hapart.imp h.disjoint_tagsIn⟩
  have hrest : (parts.flatMap r.tagsIn).Disjoint (r.tagsIn (EventClass.outside parts)) := by
    intro tag hpart houtside
    obtain ⟨part, hmem, hpart⟩ := List.mem_flatMap.1 hpart
    exact h.disjoint_tagsIn (fun c hc hnone => EventClass.mem_outside.1 hnone part hmem hc) hpart
      houtside
  refine (List.perm_ext_iff_of_nodup
    (hparts.append (nodup_of_ascending (h.pairwise_tagsIn _)) hrest)
    (nodup_of_ascending h.pairwise_tags)).2 fun tag => ?_
  simp only [List.mem_append, List.mem_flatMap, h.mem_tagsIn_iff, h.mem_tags_iff]
  constructor
  · rintro (⟨-, -, entry, hentry, -⟩ | ⟨entry, hentry, -⟩) <;> exact ⟨entry, hentry⟩
  · rintro ⟨entry, hentry⟩
    by_cases hsome : ∃ part ∈ parts, entry.eventClass ∈ part
    · obtain ⟨part, hmem, hclass⟩ := hsome
      exact Or.inl ⟨part, hmem, entry, hentry, hclass⟩
    · refine Or.inr ⟨entry, hentry, EventClass.mem_outside.2 fun part hmem hclass => ?_⟩
      exact hsome ⟨part, hmem, hclass⟩

end Entering

theorem ofRegistrations_concat (xs : List Registration) (x : Registration) :
    ofRegistrations (xs ++ [x]) = (ofRegistrations xs).enter x := by
  simp [ofRegistrations]

theorem ascending_ofRegistrations (xs : List Registration) : (ofRegistrations xs).Ascending := by
  induction xs using List.reverseRecOn with
  | nil => exact List.Pairwise.nil
  | append_singleton xs x ih =>
    rw [ofRegistrations_concat]
    exact ih.enter x

/-- A tag has the entry of its last registration. -/
theorem find?_ofRegistrations (xs : List Registration) (tag : Tag) :
    (ofRegistrations xs).find? tag = (Registration.last? xs tag).map Registration.entry := by
  induction xs using List.reverseRecOn with
  | nil => rfl
  | append_singleton xs x ih =>
    rw [ofRegistrations_concat, find?_enter, Registration.last?_concat]
    split
    · rfl
    · exact ih

/-- After any registrations every view of the registry goes by the last registration of a
tag.  What is found under a tag, whether anything is, and the class are those of that
registration; a tag has none only if it was never registered.  The tags are those
registered, strictly ascending, so each once.  The tags in a set of classes are, strictly
ascending, those whose last class is in it; for sets of classes apart they are apart, and
with those of the other classes they are all tags. -/
theorem views_agree (xs : List Registration) :
    (∀ tag, (ofRegistrations xs).find? tag =
      (Registration.last? xs tag).map Registration.entry) ∧
    (∀ tag, (ofRegistrations xs).contains tag = (Registration.last? xs tag).isSome) ∧
    (∀ tag, (ofRegistrations xs).classOf? tag =
      (Registration.last? xs tag).map fun x => x.entry.eventClass) ∧
    (∀ tag, Registration.last? xs tag = none ↔ ∀ x ∈ xs, x.tag ≠ tag) ∧
    (∀ tag, tag ∈ (ofRegistrations xs).tags ↔ ∃ x ∈ xs, x.tag = tag) ∧
    (ofRegistrations xs).tags.Pairwise (· < ·) ∧
    (ofRegistrations xs).size = (ofRegistrations xs).tags.length ∧
    (∀ classes tag, tag ∈ (ofRegistrations xs).tagsIn classes ↔
      ∃ x, Registration.last? xs tag = some x ∧ x.entry.eventClass ∈ classes) ∧
    (∀ classes, ((ofRegistrations xs).tagsIn classes).Pairwise (· < ·)) ∧
    ∀ parts : List (List EventClass), parts.Pairwise List.Disjoint →
      (parts.map (ofRegistrations xs).tagsIn).Pairwise List.Disjoint ∧
      (parts.flatMap (ofRegistrations xs).tagsIn ++
        (ofRegistrations xs).tagsIn (EventClass.outside parts)).Perm (ofRegistrations xs).tags := by
  have hascending := ascending_ofRegistrations xs
  refine ⟨find?_ofRegistrations xs, fun tag => ?_, fun tag => ?_,
    fun tag => Registration.last?_eq_none_iff, fun tag => ?_, hascending.pairwise_tags, ?_,
    fun classes tag => ?_, hascending.pairwise_tagsIn,
    fun parts hapart => ⟨?_, hascending.perm_tags hapart⟩⟩
  · rw [contains, find?_ofRegistrations, Option.isSome_map]
  · rw [classOf?, find?_ofRegistrations, Option.map_map]
    rfl
  · have hnone : Registration.last? xs tag = none ↔ ∀ x ∈ xs, x.tag ≠ tag :=
      Registration.last?_eq_none_iff
    rw [hascending.mem_tags_iff, ← Option.isSome_iff_exists, find?_ofRegistrations,
      Option.isSome_map, ← Option.ne_none_iff_isSome, ne_eq, hnone]
    simp
  · simp [size, tags]
  · rw [hascending.mem_tagsIn_iff, find?_ofRegistrations]
    simp
  · exact List.pairwise_map.2 (hapart.imp hascending.disjoint_tagsIn)

/-- Two tags are registered again, each under another class, one of them a known kind. -/
def movedRegistrations : List Registration :=
  [.ofKind .createTeam (.ofScripts []), .ofTag "custom:thing" .compute (.ofScripts []),
    .ofKind .createAirflow (.ofScripts []), .ofTag "create:team" .airflow (.ofScripts []),
    .ofTag "custom:thing" .jupyter (.ofScripts []), .ofKind .createCompute (.ofScripts [])]

theorem views_agree_of_movedRegistrations :
    (ofRegistrations movedRegistrations).classOf? "create:team" = some .airflow ∧
    "create:team" ∈ (ofRegistrations movedRegistrations).tagsIn [.airflow] ∧
    "create:team" ∉ (ofRegistrations movedRegistrations).tagsIn [.team, .compute] ∧
    (ofRegistrations movedRegistrations).tagsIn [.airflow, .jupyter] =
      ["create:airflow", "create:team", "custom:thing"] ∧
    [[EventClass.airflow, .jupyter], [.team, .compute]].Pairwise List.Disjoint ∧
    ([["create:airflow", "create:team", "custom:thing"],
      (ofRegistrations movedRegistrations).tagsIn [.team, .compute]].Pairwise List.Disjoint) ∧
    (["create:airflow", "create:team", "custom:thing", "create:compute"]).Perm
      (ofRegistrations movedRegistrations).tags := by
  obtain ⟨-, -, hclass, -, -, -, -, hmem, -, hparts⟩ := views_agree movedRegistrations
  have hlast : Registration.last? movedRegistrations "create:team" =
      some (.ofTag "create:team" .airflow (.ofScripts [])) := rfl
  have hairflow : (ofRegistrations movedRegistrations).classOf? "create:team" =
      some .airflow := by
    rw [hclass, hlast]
    rfl
  have hfirst : (ofRegistrations movedRegistrations).tagsIn [.airflow, .jupyter] =
      ["create:airflow", "create:team", "custom:thing"] := by decide +kernel
  have hsecond : (ofRegistrations movedRegistrations).tagsIn [.team, .compute] =
      ["create:compute"] := by decide +kernel
  have houtside : (ofRegistrations movedRegistrations).tagsIn
      (EventClass.outside [[.airflow, .jupyter], [.team, .compute]]) = [] := by decide +kernel
  have hapart : [[EventClass.airflow, .jupyter], [.team, .compute]].Pairwise List.Disjoint := by
    simp [List.disjoint_left]
  obtain ⟨hdisjoint, hperm⟩ := hparts _ hapart
  simp only [List.map_cons, List.map_nil, hfirst] at hdisjoint
  simp only [List.flatMap_cons, List.flatMap_nil, hfirst, hsecond, houtside] at hperm
  refine ⟨hairflow, (hmem _ _).2 ⟨_, hlast, List.mem_cons_self⟩, fun hteam => ?_, hfirst, hapart,
    hdisjoint, hperm⟩
  obtain ⟨x, hx, hteam⟩ := (hmem _ _).1 hteam
  rw [hlast] at hx
  rw [← Option.some.inj hx] at hteam
  revert hteam
  decide

end Registry
end EventDispatch
