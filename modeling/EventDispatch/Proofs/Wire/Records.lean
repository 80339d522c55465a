import EventDispatch.Json.Wire
import Mathlib.Tactic.Common

/-!
# Reading back what was written

**Input.** An object written for a record, with any further keys put in that the record
does not declare.  Its keys stand in their own order, not in that of the declaration.

**Results.** Such an object has what was written under each declared key, and under these
keys nothing else (`Json.has_putAll`).  So the record is read from it, and the fields that
are kept are the ones written (`Record.read_of_has`).  Items, options and integers in range
are read back from their own forms.  The other way round, a field that was read says what is
written under its key (`Record.lookup_of_required`, `Record.lookup_of_optional`).
-/

namespace EventDispatch
namespace Json

/-! ## Objects with further keys -/

/-- Puts fields in, one after the other. -/
def putAll (fields extra : List (String × Json)) : List (String × Json) :=
  extra.foldl (fun acc f => insertField f.1 f.2 acc) fields

/-- Puts further fields into an object. -/
def adding (extra : List (String × Json)) : Json → Json
  | obj fields => obj (putAll fields extra)
  | v => v

/-- A form with further keys, none of which is among those given. -/
def Widens (keys : List String) (form wide : Json) : Prop :=
  ∃ extra : List (String × Json), (∀ f ∈ extra, f.1 ∉ keys) ∧ wide = form.adding extra

theorem Widens.refl (keys : List String) (form : Json) : Widens keys form form := by
  refine ⟨[], by simp, ?_⟩
  cases form <;> rfl

theorem eq_or_mem_of_mem_insertField {key : String} {value : Json} {f : String × Json}
    {fields : List (String × Json)} (h : f ∈ insertField key value fields) :
    f = (key, value) ∨ f ∈ fields := by
  induction fields with
  | nil => exact Or.inl (List.mem_singleton.1 h)
  | cons head rest ih =>
    simp only [insertField] at h
    split at h
    · exact List.mem_cons.1 h
    · split at h
      · exact (List.mem_cons.1 h).imp_right (List.mem_cons_of_mem _)
      · rcases List.mem_cons.1 h with rfl | hrest
        · exact Or.inr List.mem_cons_self
        · exact (ih hrest).imp_right (List.mem_cons_of_mem _)

theorem mem_or_mem_of_mem_putAll {f : String × Json} {fields extra : List (String × Json)}
    (h : f ∈ putAll fields extra) : f ∈ extra ∨ f ∈ fields := by
  induction extra generalizing fields with
  | nil => exact Or.inr h
  | cons head rest ih =>
    rcases ih h with hrest | hput
    · exact Or.inl (List.mem_cons_of_mem _ hrest)
    · rcases eq_or_mem_of_mem_insertField hput with rfl | hold
      · exact Or.inl List.mem_cons_self
      · exact Or.inr hold

theorem lookup_putAll_of_notMem {key : String} {fields extra : List (String × Json)}
    (h : key ∉ extra.map Prod.fst) : lookup key (putAll fields extra) = lookup key fields := by
  induction extra generalizing fields with
  | nil => rfl
  | cons head rest ih =>
    simp only [List.map_cons, List.mem_cons, not_or] at h
    exact (ih h.2).trans (lookup_insertField_of_ne h.1 head.2 fields)

/-- Under distinct keys, each field put in is found. -/
theorem lookup_putAll {p : String × Json} {fields pairs : List (String × Json)}
    (hkeys : (pairs.map Prod.fst).Nodup) (hp : p ∈ pairs) :
    lookup p.1 (putAll fields pairs) = some p.2 := by
  induction pairs generalizing fields with
  | nil => cases hp
  | cons head rest ih =>
    obtain ⟨hnew, hrest⟩ := List.nodup_cons.1 hkeys
    rcases List.mem_cons.1 hp with rfl | hp
    · exact (lookup_putAll_of_notMem hnew).trans (lookup_insertField_self p.1 p.2 fields)
    · exact ih hrest hp

theorem lookup_filter {keep : String × Json → Bool} {key : String}
    {fields : List (String × Json)} (h : ∀ v, keep (key, v) = true) :
    lookup key (fields.filter keep) = lookup key fields := by
  induction fields with
  | nil => rfl
  | cons head rest ih =>
    obtain ⟨k, v⟩ := head
    by_cases hk : k = key
    · subst hk
      simp [h, lookup]
    · rw [List.filter_cons]
      split
      · simp [lookup, hk, ih]
      · simp [lookup, hk, ih]

/-- Fields have the given pairs, and nothing else under their keys. -/
structure Has (pairs fields : List (String × Json)) : Prop where
  lookup : ∀ p ∈ pairs, Json.lookup p.1 fields = some p.2
  only : ∀ f ∈ fields, f ∈ pairs ∨ f.1 ∉ pairs.map Prod.fst

/-- What is kept under the keys of the pairs is all there. -/
theorem Has.filter {pairs fields : List (String × Json)} (h : Has pairs fields)
    {keep : String × Json → Bool} (hkeep : ∀ p ∈ pairs, ∀ v, keep (p.1, v) = true) :
    Has pairs (fields.filter keep) where
  lookup p hp := (lookup_filter (hkeep p hp)).trans (h.lookup p hp)
  only f hf := h.only f (List.mem_filter.1 hf).1

/-- Of pairs under distinct keys, some can be taken alone. -/
theorem Has.of_append {a b fields : List (String × Json)}
    (hkeys : ((a ++ b).map Prod.fst).Nodup) (h : Has (a ++ b) fields) :
    Has a fields ∧ Has b fields := by
  rw [List.map_append] at hkeys
  have hapart := (List.nodup_append.1 hkeys).2.2
  refine ⟨⟨fun p hp => h.lookup p (List.mem_append_left b hp), fun f hf => ?_⟩,
    ⟨fun p hp => h.lookup p (List.mem_append_right a hp), fun f hf => ?_⟩⟩
  · rcases h.only f hf with hmem | hnot
    · exact (List.mem_append.1 hmem).imp_right fun hb ha =>
        hapart _ ha _ (List.mem_map_of_mem hb) rfl
    · exact Or.inr fun ha => hnot (by simp only [List.map_append, List.mem_append, ha, true_or])
  · rcases h.only f hf with hmem | hnot
    · exact (List.mem_append.1 hmem).symm.imp_right fun ha hb =>
        hapart _ (List.mem_map_of_mem ha) _ hb rfl
    · exact Or.inr fun hb => hnot (by simp only [List.map_append, List.mem_append, hb, or_true])

/-- An object has what it was written from, whatever is put in under further keys. -/
theorem has_putAll {pairs extra : List (String × Json)} (hkeys : (pairs.map Prod.fst).Nodup)
    (hextra : ∀ f ∈ extra, f.1 ∉ pairs.map Prod.fst) :
    Has pairs (putAll [] (pairs ++ extra)) where
  lookup p hp := by
    have hsplit : putAll [] (pairs ++ extra) = putAll (putAll [] pairs) extra :=
      List.foldl_append
    have hnew : p.1 ∉ extra.map Prod.fst := fun hmem => by
      obtain ⟨f, hf, heq⟩ := List.mem_map.1 hmem
      exact hextra f hf (heq ▸ List.mem_map_of_mem hp)
    rw [hsplit, lookup_putAll_of_notMem hnew]
    exact lookup_putAll hkeys hp
  only f hf := by
    rcases mem_or_mem_of_mem_putAll hf with hput | hnone
    · exact (List.mem_append.1 hput).imp_right (hextra f)
    · cases hnone

/-- An object with further keys has what it was written from. -/
theorem exists_has_of_widens {pairs : List (String × Json)} {wide : Json}
    (hkeys : (pairs.map Prod.fst).Nodup)
    (h : Widens (pairs.map Prod.fst) (object pairs) wide) :
    ∃ fields, wide = obj fields ∧ Has pairs fields := by
  obtain ⟨extra, hextra, rfl⟩ := h
  refine ⟨_, ?_, has_putAll hkeys hextra⟩
  simp [object, adding, putAll]

/-! ## Records -/

/-- A pair is written for a declared field, and the field can hold it. -/
def Field.Fits (field : Field) (p : String × Json) : Prop :=
  field.name = p.1 ∧ field.check p.2 = .ok ()

theorem Field.fits_required {α : Type} {name : String} {decode : Decoder α} {v : Json} {a : α}
    (h : decode v = .ok a) : (Field.required name decode).Fits (name, v) := by
  simp [Field.Fits, Field.required, h, Except.map]

theorem Field.fits_optional {α : Type} {name : String} {decode : Decoder α} {v : Json} {a : α}
    (h : decode v = .ok a) : (Field.optional name decode).Fits (name, v) := by
  simp [Field.Fits, Field.optional, h, Except.map]

namespace Record

variable {declared : List Field} {pairs fields : List (String × Json)}

theorem names_of_fits (hfits : List.Forall₂ Field.Fits declared pairs) :
    declared.map Field.name = pairs.map Prod.fst := by
  induction hfits with
  | nil => rfl
  | cons hhead _ ih => rw [List.map_cons, List.map_cons, hhead.1, ih]

/-- The declared field of a written key can hold what is written. -/
theorem exists_check_of_fits (hfits : List.Forall₂ Field.Fits declared pairs)
    (hkeys : (pairs.map Prod.fst).Nodup) {p : String × Json} (hp : p ∈ pairs) :
    ∃ field, declared.find? (·.name = p.1) = some field ∧ field.check p.2 = .ok () := by
  induction hfits with
  | nil => cases hp
  | @cons field head declared rest hhead _ ih =>
    obtain ⟨hnew, hrest⟩ := List.nodup_cons.1 hkeys
    rcases List.mem_cons.1 hp with rfl | hp
    · exact ⟨field, by simp [hhead.1], hhead.2⟩
    · have hne : field.name ≠ p.1 := fun heq =>
        hnew (hhead.1 ▸ heq ▸ List.mem_map_of_mem hp)
      obtain ⟨found, hfind, hcheck⟩ := ih hrest hp
      exact ⟨found, by simp [hne, hfind], hcheck⟩

/-- If every declared field can hold what is written for it, these fields are kept. -/
theorem ofFields_eq_filter
    (h : ∀ f ∈ fields, ∀ field, declared.find? (·.name = f.1) = some field →
      field.check f.2 = .ok ()) :
    ofFields declared fields =
      .ok (fields.filter fun f => (declared.find? (·.name = f.1)).isSome) := by
  induction fields with
  | nil => rfl
  | cons head rest ih =>
    obtain ⟨hhead, hrest⟩ := List.forall_mem_cons.1 h
    obtain ⟨key, value⟩ := head
    simp only [ofFields, List.filter_cons]
    cases hfind : declared.find? (·.name = key) with
    | none => simpa using ih hrest
    | some field =>
      simp only [hhead field hfind, ih hrest]
      rfl

/-- From fields that have what was written for the declared ones, these are kept. -/
theorem ofFields_of_has (hfits : List.Forall₂ Field.Fits declared pairs)
    (hkeys : (pairs.map Prod.fst).Nodup) (hhas : Has pairs fields) :
    ∃ r, ofFields declared fields = .ok r ∧ ∀ p ∈ pairs, Json.lookup p.1 r = some p.2 := by
  refine ⟨_, ofFields_eq_filter fun f hf field hfind => ?_, fun p hp => ?_⟩
  · have hname : field.name = f.1 := by simpa using List.find?_some hfind
    have hdeclared : f.1 ∈ pairs.map Prod.fst := by
      rw [← names_of_fits hfits, ← hname]
      exact List.mem_map_of_mem (List.mem_of_find?_eq_some hfind)
    -- under a declared key stands nothing but what was written
    obtain ⟨found, hfound, hcheck⟩ := exists_check_of_fits hfits hkeys
      ((hhas.only f hf).resolve_right fun hnot => hnot hdeclared)
    rw [hfind] at hfound
    cases hfound
    exact hcheck
  · obtain ⟨field, hfind, -⟩ := exists_check_of_fits hfits hkeys hp
    rw [lookup_filter fun v => by simp only [hfind, Option.isSome_some]]
    exact hhas.lookup p hp

/-- A record is read from fields that have what was written for it. -/
theorem read_of_has (name : String) (hfits : List.Forall₂ Field.Fits declared pairs)
    (hkeys : (pairs.map Prod.fst).Nodup) (hhas : Has pairs fields) :
    ∃ r, read name declared (obj fields) = .ok r ∧
      ∀ p ∈ pairs, Json.lookup p.1 r = some p.2 := by
  obtain ⟨r, hread, hlookup⟩ := ofFields_of_has hfits hkeys hhas
  have hnone : missing? declared r = none := by
    simp only [missing?, Option.map_eq_none_iff, List.find?_eq_none]
    intro field hfield
    have hwritten : field.name ∈ pairs.map Prod.fst :=
      names_of_fits hfits ▸ List.mem_map_of_mem hfield
    obtain ⟨p, hp, heq⟩ := List.mem_map.1 hwritten
    simp [← heq, hlookup p hp]
  refine ⟨r, ?_, hlookup⟩
  simp only [read, hread, bind, Except.bind, hnone, pure, Except.pure]

end Record

/-! ## Values -/

/-- A list is read back from forms of its items. -/
theorem decodeList_of_forall₂ {α : Type} {read : Decoder α} {form : α → Json → Prop}
    {xs : List α} {forms : List Json} (hforms : List.Forall₂ form xs forms)
    (hread : ∀ a ∈ xs, ∀ v, form a v → read v = .ok a) :
    decodeList read (arr forms) = .ok xs := by
  simp only [decodeList]
  induction hforms with
  | nil => rfl
  | cons hhead _ ih =>
    rw [List.mapM_cons, hread _ List.mem_cons_self _ hhead,
      ih fun a ha => hread a (List.mem_cons_of_mem _ ha)]
    rfl

/-- An optional value is read back if the value is, and its form is not `null`. -/
theorem decodeOption_of_mem {α : Type} {inner : α → Json} {read : Decoder α} {x : Option α}
    (h : ∀ a ∈ x, read (inner a) = .ok a) (hn : ∀ a, inner a ≠ null) :
    decodeOption read (encodeOption inner x) = .ok x := by
  cases x with
  | none => rfl
  | some a =>
    have hread : decodeOption read (inner a) = (read (inner a)).map some := by
      unfold decodeOption
      split
      · next heq => exact absurd heq (hn a)
      · rfl
    rw [encodeOption, hread, h a rfl]
    rfl

@[simp] theorem decodeText_str (s : String) : decodeText (str s) = .ok s := rfl

@[simp] theorem decodeBool_bool (b : Bool) : decodeBool (bool b) = .ok b := rfl

@[simp] theorem decodeTexts_encodeTexts (xs : List String) :
    decodeList decodeText (encodeTexts xs) = .ok xs :=
  decodeList_encodeList decodeText_str xs

@[simp] theorem decodeText_encodeOption (x : Option String) :
    decodeOption decodeText (encodeOption str x) = .ok x :=
  decodeOption_encodeOption decodeText_str nofun x

theorem decodeInt_int {name : String} {least greatest n : Int} (hleast : least ≤ n)
    (hgreatest : n ≤ greatest) : decodeInt name least greatest (int n) = .ok n := by
  simp [decodeInt, hleast, hgreatest]

/-! ## What a reading says -/

theorem exists_of_map_eq_ok {α β : Type} {f : α → β} {x : Except DecodeError α} {b : β}
    (h : x.map f = .ok b) : ∃ a, x = .ok a ∧ f a = b := by
  cases x with
  | ok a => exact ⟨a, rfl, Except.ok.inj h⟩
  | error cause => cases h

theorem exists_of_bind_eq_ok {α β : Type} {x : Except DecodeError α}
    {f : α → Except DecodeError β} {b : β} (h : x >>= f = .ok b) :
    ∃ a, x = .ok a ∧ f a = .ok b := by
  cases x with
  | ok a => exact ⟨a, rfl, h⟩
  | error cause => cases h

namespace Record

variable {r : Record} {name : String}

theorem lookup_of_required {text : String} (h : r.required name decodeText = .ok text) :
    Json.lookup name r = some (str text) := by
  unfold required at h
  split at h
  · next v hfield =>
    cases v with
    | str s =>
      cases h
      exact hfield
    | null | bool _ | int _ | float _ | arr _ | obj _ => cases h
  · cases h

/-- An optional integer is the one that is written, and there is none exactly if none is
written or null is. -/
theorem lookup_of_optional {x : Option Int} (h : r.optional name decodeInt64 = .ok x) :
    (∀ n, x = some n ↔ Json.lookup name r = some (int n)) ∧
      (x = none ↔ Json.lookup name r = none ∨ Json.lookup name r = some null) := by
  unfold optional orElse at h
  split at h
  · next v hfield =>
    rw [hfield]
    cases v with
    | null =>
      cases h
      simp
    | int n =>
      obtain ⟨m, hm, rfl⟩ := exists_of_map_eq_ok h
      simp only [decodeInt64, decodeInt] at hm
      split at hm
      · cases hm
        simp
      · cases hm
    | bool _ | float _ | str _ | arr _ | obj _ => cases h
  · next hfield =>
    cases h
    simp [hfield]

theorem lookup_of_orElse {v default : Json} (h : r.orElse name decodeValue default = .ok v) :
    v = (Json.lookup name r).getD default := by
  unfold orElse at h
  split at h
  · next hfield =>
    cases h
    rw [hfield]
    rfl
  · next hfield =>
    cases h
    rw [hfield]
    rfl

end Record
end Json
end EventDispatch
