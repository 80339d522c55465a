import EventDispatch.Store.Access

/-!
# Leadership

**Rule.** Only the leader dispatches. An election outside of the service says who leads, or cannot
say. Whoever becomes the leader first sends the events that an earlier leader left behind back to
wait, and takes the lead only once that has worked.

**Contents**

* `Election`, `Election.answer`, `ElectionError`
* `DispatchError`
-/

namespace EventDispatch

/-- The election cannot be reached. -/
structure ElectionError where
  /-- What is wrong with it. -/
  reason : String
deriving DecidableEq

/-- The wording of that failure. -/
def ElectionError.message (e : ElectionError) : String := "leader election unavailable: " ++ e.reason

/-- What says who leads. -/
inductive Election where
  /-- There is one instance, and it leads. -/
  | always
  /-- A flag set from outside; while the election is out of reach it keeps its value. -/
  | flag (leads : Bool) (outage : Option ElectionError)
deriving DecidableEq

/-- Whether this instance leads. -/
def Election.answer : Election → Except ElectionError Bool
  | always => .ok true
  | flag _ (some e) => .error e
  | flag leads none => .ok leads

/-- Why a cycle ended before it started anything. -/
inductive DispatchError where
  /-- The store failed. -/
  | store (cause : StoreError)
  /-- The election failed. -/
  | election (cause : ElectionError)
deriving DecidableEq

/-- The wording of such a failure. -/
def DispatchError.message : DispatchError → String
  | store cause => "store error: " ++ cause.message
  | election cause => "leader election error: " ++ cause.message

end EventDispatch
