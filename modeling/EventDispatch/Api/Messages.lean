import EventDispatch.Event.Basic
import EventDispatch.Event.Payload

/-!
# Messages of the operator interface

**Rule.** Operators read events and trails and send requests in these shapes. Points in time and
deadlines are whole seconds. The fields of an event with its trail stand beside the trail, not in an
object of their own.

**Contents**

* `EventSummary`, `TrailEntry`, `EventHistory`: what operators read
* `RegisterRequest`, `RegisterReply`, `PauseReply`, `ResetReply`
* `ListQuery`, `clampLimit`
-/

namespace EventDispatch

open Json

/-- Reads an identifier. -/
def Uuid.decode : Decoder Uuid
  | .str s =>
    match Uuid.ofText? s with
    | some id => .ok id
    | none => .error (.refused "UUID parsing failed")
  | v => .error (.wrongType v.found "a formatted UUID string")

instance : Wire Uuid := ⟨fun id => str id.text, Uuid.decode⟩

/-- An event as operators see it. -/
structure EventSummary where
  /-- Its identifier. -/
  id : Uuid
  /-- Its tag. -/
  tag : Tag
  /-- Its owner. -/
  owner : String
  /-- Where it stands. -/
  status : Status
  /-- The whole seconds that one run may take. -/
  deadlineSeconds : Int
  /-- How often it went back to wait. -/
  retries : Int
  /-- The second in which it was recorded. -/
  created : Int
  /-- The second in which its status last changed. -/
  updated : Int
deriving DecidableEq

namespace EventSummary

/-- The summary of an event. -/
def ofEvent (e : Event) : EventSummary :=
  ⟨e.id, e.tag, e.owner, e.status, e.deadline.seconds, e.retryCount.toInt, e.created.seconds,
    e.updated.seconds⟩

/-- The declared fields; `status` reads the status. -/
def declared (status : Decoder Status) : List Field :=
  [.required "id" Uuid.decode, .required "event_type" decodeText, .required "owner" decodeText,
   .required "status" status, .required "deadline_secs" decodeInt64,
   .required "retry_count" decodeInt32, .required "created_at" decodeInt64,
   .required "updated_at" decodeInt64]

/-- Reads a summary; `status` reads the status. -/
def decodeWith (status : Decoder Status) : Decoder EventSummary := fun v => do
  let r ← Record.read "EventResponse" (declared status) v
  pure ⟨← r.required "id" Uuid.decode, ← r.required "event_type" decodeText,
    ← r.required "owner" decodeText, ← r.required "status" status,
    ← r.required "deadline_secs" decodeInt64, ← r.required "retry_count" decodeInt32,
    ← r.required "created_at" decodeInt64, ← r.required "updated_at" decodeInt64⟩

/-- Reads a summary. -/
def decode : Decoder EventSummary := decodeWith (decodeChoice Status.choices)

/-- The fields of a summary. -/
def fields (x : EventSummary) : List (String × Json) :=
  [("id", str x.id.text), ("event_type", str x.tag), ("owner", str x.owner),
   ("status", str x.status.name), ("deadline_secs", int x.deadlineSeconds),
   ("retry_count", int x.retries), ("created_at", int x.created), ("updated_at", int x.updated)]

/-- Writes a summary. -/
def encode (x : EventSummary) : Json := object x.fields

instance : Wire EventSummary := ⟨encode, decode⟩

end EventSummary

/-- A row of a trail as operators see it. -/
structure TrailEntry where
  /-- Its identifier. -/
  id : Uuid
  /-- The event it is about. -/
  event : Uuid
  /-- How serious it is. -/
  level : LogLevel
  /-- What happened. -/
  message : String
  /-- The second in which it was written. -/
  created : Int
deriving DecidableEq

namespace TrailEntry

/-- The entry of a row. -/
def ofRow (row : LogRow) : TrailEntry :=
  ⟨row.id, row.event, row.level, row.message, row.created.seconds⟩

/-- The declared fields. -/
def declared : List Field :=
  [.required "id" Uuid.decode, .required "event_id" Uuid.decode,
   .required "log_type" (decodeChoice LogLevel.choices), .required "message" decodeText,
   .required "created_at" decodeInt64]

/-- Reads an entry. -/
def decode : Decoder TrailEntry := fun v => do
  let r ← Record.read "EventLogResponse" declared v
  pure ⟨← r.required "id" Uuid.decode, ← r.required "event_id" Uuid.decode,
    ← r.required "log_type" (decodeChoice LogLevel.choices), ← r.required "message" decodeText,
    ← r.required "created_at" decodeInt64⟩

/-- Writes an entry. -/
def encode (x : TrailEntry) : Json :=
  object [("id", str x.id.text), ("event_id", str x.event.text), ("log_type", str x.level.name),
    ("message", str x.message), ("created_at", int x.created)]

instance : Wire TrailEntry := ⟨encode, decode⟩

end TrailEntry

/-- An event with the last rows of its trail. -/
structure EventHistory where
  /-- The event. -/
  summary : EventSummary
  /-- Its rows, newest first. -/
  trail : List TrailEntry
deriving DecidableEq

namespace EventHistory

/-- The history of an event with some of its rows. -/
def ofEvent (e : Event) (rows : List LogRow) : EventHistory := ⟨.ofEvent e, rows.map .ofRow⟩

/-- Reads a history: the rows first, also that they are there, then the event. -/
def decode : Decoder EventHistory
  | .obj fields => do
    let rows ← Record.ofFields [.required "logs" (decodeList TrailEntry.decode)] fields
    let trail ← Record.required rows "logs" (decodeList TrailEntry.decode)
    let summary ← EventSummary.decodeWith (decodeChoiceOver decodeEmpty Status.choices)
      (.obj (fields.filter fun f => f.1 ≠ "logs"))
    pure ⟨summary, trail⟩
  | v => .error (.wrongType v.found "struct EventWithLogsResponse")

/-- Writes a history. -/
def encode (x : EventHistory) : Json :=
  object (x.summary.fields ++ [("logs", encodeList TrailEntry.encode x.trail)])

instance : Wire EventHistory := ⟨encode, decode⟩

end EventHistory

/-- A request to register an event. Without a deadline the tag must be one of a known kind. -/
structure RegisterRequest where
  /-- The tag of the event. -/
  tag : Tag
  /-- Its owner. -/
  owner : String
  /-- The seconds that one run may take. -/
  deadlineSeconds : Option Int
  /-- What its handler needs to know. -/
  payload : Json

namespace RegisterRequest

/-- The declared fields. -/
def declared : List Field :=
  [.required "event_type" decodeText, .required "owner" decodeText,
   .optional "deadline_secs" (decodeOption decodeInt64), .optional "payload" decodeValue]

/-- The request of checked fields. -/
def ofRecord (r : Record) : Except DecodeError RegisterRequest := do
  pure ⟨← r.required "event_type" decodeText, ← r.required "owner" decodeText,
    ← r.optional "deadline_secs" decodeInt64, ← r.orElse "payload" decodeValue .null⟩

/-- Reads a request. -/
def decode : Decoder RegisterRequest := fun v => do
  ofRecord (← Record.read "RegisterEventRequest" declared v)

/-- Writes a request. -/
def encode (x : RegisterRequest) : Json :=
  object [("event_type", str x.tag), ("owner", str x.owner),
    ("deadline_secs", encodeOption int x.deadlineSeconds), ("payload", x.payload)]

instance : Wire RegisterRequest := ⟨encode, decode⟩

end RegisterRequest

/-- The answer to a registration. -/
structure RegisterReply where
  /-- The identifier of the recorded event. -/
  id : Uuid
deriving DecidableEq

namespace RegisterReply

/-- Reads a reply. -/
def decode : Decoder RegisterReply := fun v => do
  let r ← Record.read "RegisterEventResponse" [.required "id" Uuid.decode] v
  pure ⟨← r.required "id" Uuid.decode⟩

/-- Writes a reply. -/
def encode (x : RegisterReply) : Json := object [("id", str x.id.text)]

instance : Wire RegisterReply := ⟨encode, decode⟩

end RegisterReply

/-- The answer to pausing or resuming a class. -/
structure PauseReply where
  /-- Whether anything changed. -/
  changed : Bool
  /-- The paused classes, in order. -/
  paused : List EventClass
deriving DecidableEq

namespace PauseReply

/-- Reads a list of classes. -/
def decodeClasses : Decoder (List EventClass) := decodeList (decodeChoice EventClass.choices)

/-- Reads a reply. -/
def decode : Decoder PauseReply := fun v => do
  let r ← Record.read "MaintenanceResponse"
    [.required "changed" decodeBool, .required "paused_classes" decodeClasses] v
  pure ⟨← r.required "changed" decodeBool, ← r.required "paused_classes" decodeClasses⟩

/-- Writes a reply. -/
def encode (x : PauseReply) : Json :=
  object [("changed", bool x.changed),
    ("paused_classes", encodeList (fun c : EventClass => str c.name) x.paused)]

instance : Wire PauseReply := ⟨encode, decode⟩

end PauseReply

/-- The answer to sending events back to wait. -/
structure ResetReply where
  /-- How many were sent back. -/
  count : Nat
deriving DecidableEq

namespace ResetReply

/-- Reads a reply. -/
def decode : Decoder ResetReply := fun v => do
  let r ← Record.read "ResetResponse" [.required "reset" decodeWord64] v
  pure ⟨← r.required "reset" decodeWord64⟩

/-- Writes a reply. -/
def encode (x : ResetReply) : Json := object [("reset", int x.count)]

instance : Wire ResetReply := ⟨encode, decode⟩

end ResetReply

/-- How much of a listing is asked for. -/
structure ListQuery where
  /-- The number of items. -/
  limit : Int
deriving DecidableEq

namespace ListQuery

/-- The number of items if none is asked for. -/
def defaultLimit : Int := 20

/-- Reads a query. -/
def decode : Decoder ListQuery := fun v => do
  let r ← Record.read "ListQuery" [.optional "limit" decodeInt64] v
  pure ⟨← r.orElse "limit" decodeInt64 defaultLimit⟩

end ListQuery

/-- The number of items that a listing really has at most: between 1 and 200. -/
def clampLimit (limit : Int) : Int := max 1 (min limit 200)

end EventDispatch
