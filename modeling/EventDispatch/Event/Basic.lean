import EventDispatch.Event.Status
import EventDispatch.Event.Tag
import EventDispatch.Event.Uuid
import EventDispatch.Json.Value
import EventDispatch.Text.Blank
import EventDispatch.Time.Instant

/-!
# Events

**Input.** A request: the tag of the event, its owner, its payload, and how long one run may take.

**Rules.** A request is refused if its tag or its owner is blank, or if its deadline is not positive
or is longer than a day; of two faults the first in this order is reported. Two events with the same
owner and resource have the same key and are never run at the same time. A pending event is overdue
once its waiting time has passed. The count of retries is kept and shown as a word: adding one to its
greatest value gives its least.

**Contents**

* `NewEvent`, `Rejection`, `NewEvent.validate`
* `Event`, `Event.key`, `Event.retryCount`, `Event.dueAt?`, `Event.isOverdue`
* `LogRow`: a row of the audit trail
-/

namespace EventDispatch

/-- A request to record an event. -/
structure NewEvent where
  /-- What to do to which resource. -/
  tag : Tag
  /-- On whose behalf. -/
  owner : String
  /-- What the handler needs to know. -/
  payload : Json
  /-- How long one run may take. -/
  deadline : Duration

/-- Why a request is refused. -/
inductive Rejection where
  /-- The tag is blank. -/
  | blankTag
  /-- The owner is blank. -/
  | blankOwner
  /-- The deadline is not positive, or longer than a day. -/
  | badDeadline (deadline : Duration)
deriving DecidableEq

/-- The longest deadline of a new event. -/
def longestDeadline : Duration := .ofSeconds 86400

/-- The wording of a refusal. -/
def Rejection.message : Rejection → String
  | blankTag => "event type is empty"
  | blankOwner => "owner is empty"
  | badDeadline d =>
    "deadline must be positive and at most " ++ longestDeadline.text ++ ", got " ++ d.text

/-- Checks a request before it is recorded. -/
def NewEvent.validate (e : NewEvent) : Except Rejection Unit :=
  if Text.allBlank e.tag then .error .blankTag
  else if Text.allBlank e.owner then .error .blankOwner
  else if e.deadline.nanos ≤ 0 ∨ longestDeadline.nanos < e.deadline.nanos then
    .error (.badDeadline e.deadline)
  else .ok ()

/-- What two events must share to exclude each other: the owner and the resource. -/
structure Key where
  /-- On whose behalf. -/
  owner : String
  /-- Which resource. -/
  resource : String
deriving DecidableEq, Repr

/-- A recorded event. -/
structure Event where
  /-- Its identifier. -/
  id : Uuid
  /-- What to do to which resource. -/
  tag : Tag
  /-- On whose behalf. -/
  owner : String
  /-- What the handler needs to know. -/
  payload : Json
  /-- Where it stands. -/
  status : Status
  /-- How long one run may take. -/
  deadline : Duration
  /-- How often it went back to wait for another run; a word of 32 bits is kept of it, see
  `Event.retryCount`. -/
  retries : Int
  /-- When it was recorded. -/
  created : Instant
  /-- When its status last changed. -/
  updated : Instant
deriving Inhabited

namespace Event

/-- The resource it is about. -/
def resource (e : Event) : String := Tag.resource e.tag

/-- The key that it shares with the events it excludes. -/
def key (e : Event) : Key := ⟨e.owner, e.resource⟩

/-- The count of retries, as it is kept and shown: a signed word of 32 bits. -/
def retryCount (e : Event) : Int32 := .ofInt e.retries

/-- One retry more is one more in the word, also at its greatest value. -/
theorem retryCount_of_retries_eq {e e' : Event} (h : e'.retries = e.retries + 1) :
    e'.retryCount = e.retryCount + 1 := by
  rw [retryCount, h, Int32.ofInt_add]
  rfl

/-- The word is the number of retries, as long as that fits. -/
theorem toInt_retryCount {e : Event} (hleast : -2147483648 ≤ e.retries)
    (hgreatest : e.retries < 2147483648) : e.retryCount.toInt = e.retries :=
  Int32.toInt_ofInt_of_le hleast hgreatest

/-- When it may run again, if ever. -/
def dueAt? (e : Event) : Option Instant := EventDispatch.dueAt? e.updated e.deadline e.retries

/-- Whether it has waited long enough at `now`. -/
def isOverdue (e : Event) (now : Instant) : Bool :=
  EventDispatch.isOverdue e.updated e.deadline e.retries now

end Event

/-- The event that a request becomes. -/
def NewEvent.recorded (e : NewEvent) (id : Uuid) (now : Instant) : Event :=
  ⟨id, e.tag, e.owner, e.payload, .new, e.deadline, 0, now, now⟩

/-- A row of the audit trail of an event. -/
structure LogRow where
  /-- Its identifier. -/
  id : Uuid
  /-- The event it is about. -/
  event : Uuid
  /-- How serious it is. -/
  level : LogLevel
  /-- What happened. -/
  message : String
  /-- When it was written. -/
  created : Instant
deriving DecidableEq, Inhabited

end EventDispatch
