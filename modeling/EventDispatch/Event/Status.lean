/-!
# Statuses

**Rule.** An event starts as `new`, runs as `processing`, waits for another run as `pending`, and
ends as `completed` or `failed`, which it never leaves.

**Contents**

* `Status`, `Status.sources`, `Status.canBecome`, `Status.isTerminal`
* `LogLevel`: how serious a row of the audit trail is
-/

namespace EventDispatch

/-- Where an event stands. -/
inductive Status where
  /-- Registered, never run. -/
  | new
  /-- Being run. -/
  | processing
  /-- Waiting to be run again. -/
  | pending
  /-- Ended well. -/
  | completed
  /-- Ended badly. -/
  | failed
deriving DecidableEq, Repr, Inhabited

namespace Status

/-- Every status, in order. -/
def all : List Status := [new, processing, pending, completed, failed]

/-- The name of a status. -/
def name : Status → String
  | new => "new"
  | processing => "processing"
  | pending => "pending"
  | completed => "completed"
  | failed => "failed"

/-- The statuses under their names. -/
def choices : List (String × Status) := all.map fun s => (s.name, s)

/-- The status of a name. -/
def ofName? (name : String) : Option Status := choices.lookup name

/-- Whether an event stays in the status for ever. -/
def isTerminal : Status → Bool
  | completed | failed => true
  | _ => false

/-- The statuses from which an event may move to this one. -/
def sources : Status → List Status
  | new => []
  | processing => [new, pending]
  | pending => [processing]
  | completed | failed => [processing, pending]

/-- Whether an event may move from the first status to the second. -/
def canBecome (current target : Status) : Bool := target.sources.contains current

instance : ToString Status := ⟨name⟩

/-- A status is read back from its name. -/
@[simp] theorem ofName?_name (s : Status) : ofName? s.name = some s := by
  cases s <;> rfl

/-- A terminal status is never left. -/
theorem canBecome_eq_false_of_isTerminal {s : Status} (h : s.isTerminal = true) (t : Status) :
    s.canBecome t = false := by
  cases s <;> cases t <;> first | rfl | cases h

end Status

/-- How serious a row of the audit trail is. -/
inductive LogLevel where
  /-- A remark. -/
  | info
  /-- A failure after which the event is run again. -/
  | error
  /-- A failure that ends the event. -/
  | fatal
deriving DecidableEq, Repr, Inhabited

namespace LogLevel

/-- Every level, in order. -/
def all : List LogLevel := [info, error, fatal]

/-- The name of a level. -/
def name : LogLevel → String
  | info => "info"
  | error => "error"
  | fatal => "fatal"

/-- The levels under their names. -/
def choices : List (String × LogLevel) := all.map fun l => (l.name, l)

/-- The level of a name. -/
def ofName? (name : String) : Option LogLevel := choices.lookup name

/-- A level is read back from its name. -/
@[simp] theorem ofName?_name (l : LogLevel) : ofName? l.name = some l := by
  cases l <;> rfl

end LogLevel

end EventDispatch
