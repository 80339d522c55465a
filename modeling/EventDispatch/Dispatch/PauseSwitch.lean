import EventDispatch.Event.Kind

/-!
# The pause switch

**State.** The set of paused classes, and a count of the changes made to it.

**Rules.** Every call that changes the set adds one to the count, and no other does. A watcher
remembers the count it saw last, so it learns of every change once, also of one that was undone
since; after the switch is gone it first learns of what it has not seen.

**Contents**

* `PauseSwitch`, `PauseSwitch.pause`, `PauseSwitch.resume`, `PauseSwitch.replace`
* `Watcher`, `Watcher.poll`
-/

namespace EventDispatch

/-- The classes that are paused. -/
structure PauseSwitch where
  /-- The paused classes, in order and each once. -/
  classes : List EventClass
  /-- How often the set changed. -/
  version : Nat
deriving DecidableEq

namespace PauseSwitch

/-- A switch with some classes paused from the start. -/
def ofClasses (classes : List EventClass) : PauseSwitch := ⟨EventClass.sorted classes, 0⟩

/-- Whether a class is paused. -/
def isPaused (p : PauseSwitch) (c : EventClass) : Bool := p.classes.contains c

/-- Puts another set in place, and counts a change if it is another. -/
def replace (p : PauseSwitch) (classes : List EventClass) : PauseSwitch :=
  if EventClass.sorted classes = p.classes then p
  else ⟨EventClass.sorted classes, p.version + 1⟩

/-- Pauses a class, and says whether it was not paused. -/
def pause (p : PauseSwitch) (c : EventClass) : Bool × PauseSwitch :=
  if p.isPaused c then (false, p)
  else (true, ⟨EventClass.sorted (c :: p.classes), p.version + 1⟩)

/-- Resumes a class, and says whether it was paused. -/
def resume (p : PauseSwitch) (c : EventClass) : Bool × PauseSwitch :=
  if p.isPaused c then (true, ⟨p.classes.filter (· ≠ c), p.version + 1⟩) else (false, p)

/-- The switch in a listing of values. -/
def text (p : PauseSwitch) : String :=
  "PausedClasses \x7b version: " ++ toString p.version ++ ", .. \x7d"

/-- A set put in place is the set that is paused. -/
theorem mem_replace {p : PauseSwitch} {classes : List EventClass} {c : EventClass} :
    c ∈ (p.replace classes).classes ↔ c ∈ classes := by
  unfold replace
  split
  · next h => rw [← h, EventClass.mem_sorted]
  · exact EventClass.mem_sorted

end PauseSwitch

/-- Someone who waits for changes of a switch. -/
structure Watcher where
  /-- The count seen last. -/
  seen : Nat
deriving DecidableEq

/-- What a watcher learns. -/
inductive WatchAnswer where
  /-- There was a change it had not seen. -/
  | changed
  /-- There was none. -/
  | idle
  /-- There was none, and there will be none: the switch is gone. -/
  | closed
deriving DecidableEq, Repr

namespace Watcher

/-- A watcher of the changes from now on. -/
def subscribe (p : PauseSwitch) : Watcher := ⟨p.version⟩

/-- Asks for a change; `gone` says whether the switch is gone. -/
def poll (w : Watcher) (p : PauseSwitch) (gone : Bool) : WatchAnswer × Watcher :=
  if w.seen ≠ p.version then (.changed, ⟨p.version⟩)
  else if gone then (.closed, w)
  else (.idle, w)

end Watcher
end EventDispatch
