import EventDispatch.Api.Messages
import EventDispatch.Proofs.Wire.Identifiers
import EventDispatch.Proofs.Wire.Records
import Mathlib.Data.List.Forall2

/-!
# What survives the wire

**Input.** A value of a payload or of a message of the operator interface, written as a
JSON value: the keys of its object in ascending order, not in that of the declaration, and
among them any further keys that the type does not declare.

**Level.** All this is about JSON values, which is the form in which the store keeps a
payload.  How a JSON value is printed as text, and a text read as one, is not considered here.

**Domain.** A number on the wire is one of the word that its field has: a value fits if its
numbers do.

**Results.** Reading the written form yields the value again (`Wire.Survives`), for every
type of payload and every message that is both written and read.  In a history also the
rows of the trail may have further keys (`EventHistory.decode_of_rows`).
-/

namespace EventDispatch

open Json

/-! ## Names of constants -/

@[simp] theorem ChartKind.decode_name (c : ChartKind) :
    decodeChoice ChartKind.choices (str c.name) = .ok c := by
  cases c <;> rfl

@[simp] theorem EventClass.decode_name (c : EventClass) :
    decodeChoice EventClass.choices (str c.name) = .ok c := by
  cases c <;> rfl

@[simp] theorem LogLevel.decode_name (l : LogLevel) :
    decodeChoice LogLevel.choices (str l.name) = .ok l := by
  cases l <;> rfl

/-- The name of a status is read back, whatever an object over the name may say. -/
@[simp] theorem Status.decode_name (inner : Decoder Unit) (s : Status) :
    decodeChoiceOver inner Status.choices (str s.name) = .ok s := by
  cases s <;> rfl

@[simp] theorem Uuid.decode_text (u : Uuid) : Uuid.decode (str u.text) = .ok u := by
  simp [decode]

/-! ## Records -/

/-- A value that fits is read back from the JSON value that is written for it, also with
further keys. -/
def Wire.Survives (α : Type) [Wire α] (keys : List String) (fits : α → Prop) : Prop :=
  ∀ v : α, fits v → ∀ wide, Widens keys (Wire.encode v) wide → Wire.decode wide = .ok v

/-- A record survives if its fields can hold what is written for them, and the value is
made from the fields that are read. -/
theorem Wire.survives_of_fields {α : Type} [Wire α] {name : String} {declared : List Field}
    {pairs : α → List (String × Json)} {build : Record → Except DecodeError α}
    {fits : α → Prop} (hencode : ∀ v : α, Wire.encode v = object (pairs v))
    (hdecode : ∀ form, Wire.decode form = Record.read name declared form >>= build)
    (hkeys : (declared.map Field.name).Nodup)
    (hfits : ∀ v, fits v → List.Forall₂ Field.Fits declared (pairs v))
    (hbuild : ∀ v r, fits v → (∀ p ∈ pairs v, lookup p.1 r = some p.2) → build r = .ok v) :
    Wire.Survives α (declared.map Field.name) fits := by
  intro v hv wide hwide
  rw [hencode, Record.names_of_fits (hfits v hv)] at hwide
  rw [Record.names_of_fits (hfits v hv)] at hkeys
  obtain ⟨fields, rfl, hhas⟩ := exists_has_of_widens hkeys hwide
  obtain ⟨r, hread, hlookup⟩ := Record.read_of_has name (hfits v hv) hkeys hhas
  rw [hdecode, hread]
  exact hbuild v r hv hlookup

/-! ## Payloads -/

/-- The numbers of a machine are words of 32 bits. -/
def ComputeInstance.Fits (x : ComputeInstance) : Prop := ∀ n ∈ x.diskSizeGb, n ≤ 4294967295

theorem Team.survives : Wire.Survives Team (Team.declared.map Field.name) fun _ => True := by
  refine Wire.survives_of_fields (fun _ => rfl) (fun _ => rfl) (by decide) ?_ ?_
  · intro t _
    simp [declared, Field.fits_required, Field.fits_optional]
  · intro t r _ hr
    simp only [List.forall_mem_cons] at hr
    simp [Record.required, Record.orElse, hr, bind, Except.bind, pure, Except.pure]

theorem JupyterValues.survives :
    Wire.Survives JupyterValues (JupyterValues.declared.map Field.name) fun _ => True := by
  refine Wire.survives_of_fields (fun _ => rfl) (fun _ => rfl) (by decide) ?_ ?_
  · intro x _
    simp [declared, Field.fits_required]
  · intro x r _ hr
    simp only [List.forall_mem_cons] at hr
    simp [Record.required, hr, bind, Except.bind, pure, Except.pure]

theorem AirflowValues.survives :
    Wire.Survives AirflowValues (AirflowValues.declared.map Field.name) fun _ => True := by
  refine Wire.survives_of_fields (fun _ => rfl) (fun _ => rfl) (by decide) ?_ ?_
  · intro x _
    simp [declared, Field.fits_required, Field.fits_optional]
  · intro x r _ hr
    simp only [List.forall_mem_cons] at hr
    simp [Record.required, Record.optional, Record.orElse, hr, bind, Except.bind, pure,
      Except.pure]

theorem decodeWord32_encodeOption {x : Option Nat} (h : ∀ n ∈ x, n ≤ 4294967295) :
    decodeOption decodeWord32 (encodeOption (fun n : Nat => int n) x) = .ok x := by
  refine decodeOption_of_mem (fun n hn => ?_) nofun
  have hle := h n hn
  rw [decodeWord32, decodeInt_int (by omega) (by omega)]
  rfl

theorem ComputeInstance.survives :
    Wire.Survives ComputeInstance (ComputeInstance.declared.map Field.name)
      ComputeInstance.Fits := by
  refine Wire.survives_of_fields (fun _ => rfl) (fun _ => rfl) (by decide) ?_ ?_
  · intro x hx
    simp [declared, Field.fits_required, Field.fits_optional, decodeWord32_encodeOption hx]
  · intro x r hx hr
    simp only [List.forall_mem_cons] at hr
    simp [Record.required, Record.optional, Record.orElse, hr, decodeWord32_encodeOption hx,
      bind, Except.bind, pure, Except.pure]

theorem UserSecretManager.survives :
    Wire.Survives UserSecretManager (UserSecretManager.declared.map Field.name)
      fun _ => True := by
  refine Wire.survives_of_fields (fun _ => rfl) (fun _ => rfl) (by decide) ?_ ?_
  · intro x _
    simp [declared, Field.fits_required]
  · intro x r _ hr
    simp only [List.forall_mem_cons] at hr
    simp [Record.required, hr, bind, Except.bind, pure, Except.pure]

theorem HelmRelease.survives :
    Wire.Survives HelmRelease (HelmRelease.declared.map Field.name) fun _ => True := by
  refine Wire.survives_of_fields (fun _ => rfl) (fun _ => rfl) (by decide) ?_ ?_
  · intro x _
    simp [declared, Field.fits_required, Field.fits_optional]
  · intro x r _ hr
    simp only [List.forall_mem_cons] at hr
    simp [Record.required, Record.optional, Record.orElse, hr, bind, Except.bind, pure,
      Except.pure]

/-! ## Messages -/

/-- A number of a signed word of 64 bits. -/
def IsInt64 (n : Int) : Prop := -9223372036854775808 ≤ n ∧ n ≤ 9223372036854775807

/-- A number of a signed word of 32 bits. -/
def IsInt32 (n : Int) : Prop := -2147483648 ≤ n ∧ n ≤ 2147483647

theorem decodeInt64_int {n : Int} (h : IsInt64 n) : decodeInt64 (int n) = .ok n :=
  decodeInt_int h.1 h.2

theorem decodeInt32_int {n : Int} (h : IsInt32 n) : decodeInt32 (int n) = .ok n :=
  decodeInt_int h.1 h.2

/-- The numbers of a summary are words of 64 bits, and the retries one of 32. -/
structure EventSummary.Fits (x : EventSummary) : Prop where
  deadline : IsInt64 x.deadlineSeconds
  retries : IsInt32 x.retries
  created : IsInt64 x.created
  updated : IsInt64 x.updated

namespace EventSummary

variable {x : EventSummary}

/-- The keys of a summary. -/
def keys : List String := (declared (decodeChoice Status.choices)).map Field.name

theorem nodup_fields (x : EventSummary) : (x.fields.map Prod.fst).Nodup := by
  simp [fields]

theorem forall₂_fits (hx : x.Fits) {status : Decoder Status}
    (hstatus : ∀ s : Status, status (str s.name) = .ok s) :
    List.Forall₂ Field.Fits (declared status) x.fields := by
  simp [declared, fields, Field.fits_required, hstatus, decodeInt64_int hx.deadline,
    decodeInt32_int hx.retries, decodeInt64_int hx.created, decodeInt64_int hx.updated]

/-- A summary is read from fields that have what is written for it. -/
theorem decodeWith_of_has (hx : x.Fits) {status : Decoder Status}
    (hstatus : ∀ s : Status, status (str s.name) = .ok s) {fields : List (String × Json)}
    (hhas : Has x.fields fields) : decodeWith status (obj fields) = .ok x := by
  obtain ⟨r, hread, hr⟩ :=
    Record.read_of_has "EventResponse" (forall₂_fits hx hstatus) x.nodup_fields hhas
  simp only [EventSummary.fields, List.forall_mem_cons] at hr
  simp [decodeWith, hread, Record.required, hr, hstatus, decodeInt64_int hx.deadline,
    decodeInt32_int hx.retries, decodeInt64_int hx.created, decodeInt64_int hx.updated,
    bind, Except.bind, pure, Except.pure]

theorem survives : Wire.Survives EventSummary keys Fits := by
  intro x hx wide hwide
  obtain ⟨fields, rfl, hhas⟩ := exists_has_of_widens x.nodup_fields hwide
  exact decodeWith_of_has hx (Status.decode_name decodeNothing) hhas

end EventSummary

/-- The time of a row is a word of 64 bits. -/
def TrailEntry.Fits (x : TrailEntry) : Prop := IsInt64 x.created

theorem TrailEntry.survives :
    Wire.Survives TrailEntry (TrailEntry.declared.map Field.name) TrailEntry.Fits := by
  refine Wire.survives_of_fields (fun _ => rfl) (fun _ => rfl) (by decide) ?_ ?_
  · intro x hx
    simp [declared, Field.fits_required, decodeInt64_int hx]
  · intro x r hx hr
    simp only [List.forall_mem_cons] at hr
    simp [Record.required, hr, decodeInt64_int hx, bind, Except.bind, pure, Except.pure]

/-- The numbers of the event and of its rows are words. -/
structure EventHistory.Fits (x : EventHistory) : Prop where
  summary : x.summary.Fits
  trail : ∀ row ∈ x.trail, row.Fits

namespace EventHistory

variable {x : EventHistory}

/-- The keys of a history: those of the event, and that of its rows. -/
def keys : List String := EventSummary.keys ++ ["logs"]

/-- A history is read back with further keys, in it and in its rows. -/
theorem decode_of_rows (hx : x.Fits) {rows : List Json}
    (hrows : List.Forall₂ (fun row form =>
      Widens (TrailEntry.declared.map Field.name) (Wire.encode row) form) x.trail rows)
    {wide : Json} (hwide : Widens keys (object (x.summary.fields ++ [("logs", arr rows)])) wide) :
    Wire.decode wide = .ok x := by
  have hkeys : ((x.summary.fields ++ [("logs", arr rows)]).map Prod.fst).Nodup := by
    simp [EventSummary.fields]
  obtain ⟨fields, rfl, hhas⟩ := exists_has_of_widens hkeys hwide
  obtain ⟨hsummary, hlogs⟩ := hhas.of_append hkeys
  have hread : decodeList TrailEntry.decode (arr rows) = .ok x.trail :=
    decodeList_of_forall₂ hrows fun row hrow form hform =>
      TrailEntry.survives row (hx.trail row hrow) form hform
  -- the rows are read by themselves, and the event from the fields without them
  have hfits : List.Forall₂ Field.Fits [.required "logs" (decodeList TrailEntry.decode)]
      [("logs", arr rows)] := by
    simp [Field.fits_required, hread]
  obtain ⟨r, hr, hlookup⟩ := Record.ofFields_of_has hfits (by simp) hlogs
  have htrail : r.required "logs" (decodeList TrailEntry.decode) = .ok x.trail := by
    simp [Record.required, hlookup _ List.mem_cons_self, hread]
  have hevent : EventSummary.decodeWith (decodeChoiceOver decodeEmpty Status.choices)
      (obj (fields.filter fun f => f.1 ≠ "logs")) = .ok x.summary := by
    refine EventSummary.decodeWith_of_has hx.summary (Status.decode_name decodeEmpty)
      (hsummary.filter ?_)
    simp [EventSummary.fields]
  change decode (obj fields) = .ok x
  simp only [decode, hr, htrail, hevent, bind, Except.bind, pure, Except.pure]

theorem survives : Wire.Survives EventHistory keys Fits := by
  intro x hx wide hwide
  refine decode_of_rows hx ?_ hwide
  exact List.forall₂_map_right_iff.2
    (List.forall₂_same.2 fun row _ => Widens.refl _ (TrailEntry.encode row))

end EventHistory

/-- The deadline of a request is a word of 64 bits. -/
def RegisterRequest.Fits (x : RegisterRequest) : Prop := ∀ n ∈ x.deadlineSeconds, IsInt64 n

theorem decodeInt64_encodeOption {x : Option Int} (h : ∀ n ∈ x, IsInt64 n) :
    decodeOption decodeInt64 (encodeOption int x) = .ok x :=
  decodeOption_of_mem (fun n hn => decodeInt64_int (h n hn)) nofun

/-- A request survives with any JSON value as its payload. -/
theorem RegisterRequest.survives :
    Wire.Survives RegisterRequest (RegisterRequest.declared.map Field.name)
      RegisterRequest.Fits := by
  refine Wire.survives_of_fields (fun _ => rfl) (fun _ => rfl) (by decide) ?_ ?_
  · intro x hx
    simp [declared, Field.fits_required, Field.fits_optional, decodeInt64_encodeOption hx,
      decodeValue]
  · intro x r hx hr
    simp only [List.forall_mem_cons] at hr
    simp [ofRecord, Record.required, Record.optional, Record.orElse, hr,
      decodeInt64_encodeOption hx, decodeValue, bind, Except.bind, pure, Except.pure]

theorem RegisterReply.survives : Wire.Survives RegisterReply ["id"] fun _ => True := by
  change Wire.Survives RegisterReply ([Field.required "id" Uuid.decode].map Field.name) _
  refine Wire.survives_of_fields (fun _ => rfl) (fun _ => rfl) (by decide) ?_ ?_
  · intro x _
    simp [Field.fits_required]
  · intro x r _ hr
    simp only [List.forall_mem_cons] at hr
    simp [Record.required, hr, bind, Except.bind, pure, Except.pure]

@[simp] theorem PauseReply.decodeClasses_encodeList (classes : List EventClass) :
    decodeClasses (encodeList (fun c : EventClass => str c.name) classes) = .ok classes :=
  decodeList_encodeList EventClass.decode_name classes

theorem PauseReply.survives :
    Wire.Survives PauseReply ["changed", "paused_classes"] fun _ => True := by
  change Wire.Survives PauseReply ([Field.required "changed" decodeBool,
    .required "paused_classes" decodeClasses].map Field.name) _
  refine Wire.survives_of_fields (fun _ => rfl) (fun _ => rfl) (by decide) ?_ ?_
  · intro x _
    simp [Field.fits_required]
  · intro x r _ hr
    simp only [List.forall_mem_cons] at hr
    simp [Record.required, hr, bind, Except.bind, pure, Except.pure]

/-- The count is a word of 64 bits. -/
def ResetReply.Fits (x : ResetReply) : Prop := x.count ≤ 18446744073709551615

theorem decodeWord64_int {n : Nat} (h : n ≤ 18446744073709551615) :
    decodeWord64 (int n) = .ok n := by
  rw [decodeWord64, decodeInt_int (by omega) (by omega)]
  rfl

theorem ResetReply.survives : Wire.Survives ResetReply ["reset"] ResetReply.Fits := by
  change Wire.Survives ResetReply ([Field.required "reset" decodeWord64].map Field.name) _
  refine Wire.survives_of_fields (fun _ => rfl) (fun _ => rfl) (by decide) ?_ ?_
  · intro x hx
    simp [Field.fits_required, decodeWord64_int hx]
  · intro x r hx hr
    simp only [List.forall_mem_cons] at hr
    simp [Record.required, hr, decodeWord64_int hx, bind, Except.bind, pure, Except.pure]

end EventDispatch
