/-!
# Wake-ups

**State.** Requests for a cycle that wait to be received, and whether anyone is still there to
receive them.

**Rules.** A request never blocks. A full queue drops it and still says yes, since the requests in
the queue already guarantee another cycle; only once the receiver is gone the answer is no.

**Contents**

* `Wakeups`, `Wakeups.request`, `Wakeups.receive?`, `Wakeups.close`
* `ShutdownSignal`, `ShutdownSignal.send`, `ShutdownSignal.poll?`
-/

namespace EventDispatch

/-- Requests for a cycle. -/
structure Wakeups where
  /-- What the waiting requests were made for, first made first. -/
  queue : List String
  /-- Whether the receiver is gone. -/
  closed : Bool
deriving DecidableEq

namespace Wakeups

/-- How many requests can wait at a time. -/
def capacity : Nat := 256

/-- No request, and a receiver. -/
def empty : Wakeups := ⟨[], false⟩

/-- Makes a request, and says whether a receiver is there. -/
def request (w : Wakeups) (hint : String) : Bool × Wakeups :=
  if w.closed then (false, w)
  else if w.queue.length < capacity then (true, { w with queue := w.queue ++ [hint] })
  else (true, w)

/-- Takes the request that was made first. -/
def receive? (w : Wakeups) : Option (String × Wakeups) :=
  match w.queue with
  | [] => none
  | hint :: rest => some (hint, { w with queue := rest })

/-- The receiver goes, and with it the requests that wait. -/
def close (_ : Wakeups) : Wakeups := ⟨[], true⟩

/-- A request that is granted leaves a request in the queue. -/
theorem queue_ne_nil_of_request {w w' : Wakeups} {hint : String}
    (h : w.request hint = (true, w')) : w'.queue ≠ [] := by
  unfold request at h
  split at h
  · simp at h
  · split at h
    · cases h
      simp
    · next hf =>
      cases h
      intro hn
      simp [hn, capacity] at hf

/-- Receiving shortens the queue. -/
theorem length_receive? {w w' : Wakeups} {hint : String} (h : w.receive? = some (hint, w')) :
    w'.queue.length < w.queue.length := by
  unfold receive? at h
  split at h
  · cases h
  · next hq =>
    cases h
    simp [hq]

end Wakeups

/-- A value that tells the loop whether to stop. -/
structure ShutdownSignal where
  /-- The value sent last. -/
  stop : Bool
  /-- Whether a value was sent that the loop has not seen. -/
  unseen : Bool
  /-- Whether the sender is gone. -/
  abandoned : Bool
deriving DecidableEq

/-- What the loop learns from the signal. -/
inductive ShutdownNews where
  /-- It is to stop. -/
  | stop
  /-- A value was sent, but not to stop. -/
  | goOn
deriving DecidableEq

namespace ShutdownSignal

/-- Nothing was sent. -/
def initial : ShutdownSignal := ⟨false, false, false⟩

/-- Sends a value, and says whether there is a sender to do it. -/
def send (s : ShutdownSignal) (stop : Bool) : Bool × ShutdownSignal :=
  if s.abandoned then (false, s) else (true, { s with stop := stop, unseen := true })

/-- The sender goes. -/
def abandon (s : ShutdownSignal) : ShutdownSignal := { s with abandoned := true }

/-- What there is to learn, and the signal after it was learnt. -/
def poll? (s : ShutdownSignal) : Option (ShutdownNews × ShutdownSignal) :=
  if s.unseen then some (if s.stop then .stop else .goOn, { s with unseen := false })
  else if s.abandoned then some (.stop, s)
  else none

end ShutdownSignal
end EventDispatch
