import EventDispatch.Event.Uuid

/-!
# Traces

**Rule.** What the service does is told in records with a level, a message and named fields, for the
people who run it. Nothing depends on them.

**Contents**

* `TraceLevel`, `TraceValue`, `Trace`
* `Trace.debug`, `Trace.info`, `Trace.warn`, `Trace.error`
-/

namespace EventDispatch

/-- How important a record is. -/
inductive TraceLevel where
  /-- For those who follow every step. -/
  | debug
  /-- For everyone. -/
  | info
  /-- Something is not as it should be. -/
  | warn
  /-- Something failed. -/
  | error
deriving DecidableEq, Repr

/-- The name of a level. -/
def TraceLevel.name : TraceLevel → String
  | debug => "DEBUG"
  | info => "INFO"
  | warn => "WARN"
  | error => "ERROR"

/-- The value of a field. -/
inductive TraceValue where
  /-- A text. -/
  | text (s : String)
  /-- A number. -/
  | number (n : Int)
  /-- The identifier of an event. -/
  | event (id : Uuid)
deriving DecidableEq

/-- A record. -/
structure Trace where
  /-- How important it is. -/
  level : TraceLevel
  /-- What happened. -/
  message : String
  /-- The particulars. -/
  fields : List (String × TraceValue)
deriving DecidableEq

namespace Trace

/-- A record for those who follow every step. -/
def debug (message : String) (fields : List (String × TraceValue)) : Trace :=
  ⟨.debug, message, fields⟩

/-- A record for everyone. -/
def info (message : String) (fields : List (String × TraceValue)) : Trace :=
  ⟨.info, message, fields⟩

/-- A record of something that is not as it should be. -/
def warn (message : String) (fields : List (String × TraceValue)) : Trace :=
  ⟨.warn, message, fields⟩

/-- A record of a failure. -/
def error (message : String) (fields : List (String × TraceValue)) : Trace :=
  ⟨.error, message, fields⟩

end Trace
end EventDispatch
