import EventDispatch.Time.Duration

/-!
# Instants

**Input.** Points in time, as nanoseconds since the start of 1970 in universal time.

**Rule.** The calendar ends at the last nanosecond of the year 9999 and starts with the year -9999;
adding a duration is exact and answers `none` outside of that range. An event that waits for a
retry becomes due when its waiting time, its deadline taken once for each retry so far, has passed.

**Contents**

* `Instant`, `Instant.ofNanos?`, `Instant.ofParts?`, `Instant.add?`, `Instant.shift`
* `dueAt?`, `isOverdue`: the retry schedule
-/

namespace EventDispatch

/-- The first nanosecond of the calendar. -/
def Instant.least : Int := -377705116800000000000

/-- The last nanosecond of the calendar. -/
def Instant.greatest : Int := 253402300799999999999

/-- A point in time, exact to the nanosecond. -/
structure Instant where
  /-- Nanoseconds since the start of 1970. -/
  nanos : Int
  /-- The point is not before the calendar. -/
  lower : Instant.least ≤ nanos
  /-- The point is not after the calendar. -/
  upper : nanos ≤ Instant.greatest
deriving DecidableEq

namespace Instant

/-- The start of 1970. -/
def epoch : Instant := ⟨0, by decide, by decide⟩

instance : Inhabited Instant := ⟨epoch⟩

/-- Earlier instants are smaller. -/
instance : LT Instant := ⟨fun a b => a.nanos < b.nanos⟩

/-- Earlier instants are smaller. -/
instance : LE Instant := ⟨fun a b => a.nanos ≤ b.nanos⟩

instance (a b : Instant) : Decidable (a < b) := inferInstanceAs (Decidable (a.nanos < b.nanos))

instance (a b : Instant) : Decidable (a ≤ b) := inferInstanceAs (Decidable (a.nanos ≤ b.nanos))

/-- The instant of the given nanoseconds, if the calendar has it. -/
def ofNanos? (n : Int) : Option Instant :=
  if lower : least ≤ n then
    if upper : n ≤ greatest then some ⟨n, lower, upper⟩ else none
  else none

/-- The instant of whole seconds and a nanosecond part. -/
def ofParts? (seconds nanos : Int) : Option Instant := ofNanos? (seconds * nanosPerSecond + nanos)

/-- Whole seconds since the start of 1970, rounded down. -/
def seconds (t : Instant) : Int := t.nanos.fdiv nanosPerSecond

/-- Nanoseconds beyond the whole seconds, never negative. -/
def subsecond (t : Instant) : Int := t.nanos.fmod nanosPerSecond

/-- The instant `d` later, if the calendar has it. -/
def add? (t : Instant) (d : Duration) : Option Instant := ofNanos? (t.nanos + d.nanos)

/-- The instant `n` nanoseconds later, or the end of the calendar that lies beyond. -/
def shift (t : Instant) (n : Int) : Instant :=
  if lower : least ≤ t.nanos + n then
    if upper : t.nanos + n ≤ greatest then ⟨t.nanos + n, lower, upper⟩
    else ⟨greatest, by decide, by decide⟩
  else ⟨least, by decide, by decide⟩

/-- Two instants with the same nanoseconds are the same. -/
theorem ext {a b : Instant} (h : a.nanos = b.nanos) : a = b := by
  cases a
  cases b
  simpa using h

theorem lt_iff {a b : Instant} : a < b ↔ a.nanos < b.nanos := Iff.rfl

theorem le_iff {a b : Instant} : a ≤ b ↔ a.nanos ≤ b.nanos := Iff.rfl

/-- A checked instant exists exactly within the calendar, and is the point asked for. -/
theorem ofNanos?_eq_some_iff {n : Int} {t : Instant} :
    ofNanos? n = some t ↔ t.nanos = n := by
  unfold ofNanos?
  constructor
  · intro h
    split at h
    · split at h
      · cases h
        rfl
      · cases h
    · cases h
  · intro h
    subst h
    simp [t.lower, t.upper]

end Instant

/-- When an event last touched at `updated` may run again: after its deadline, taken once for each
retry so far. A negative count waits no time; a point beyond the calendar never comes. -/
def dueAt? (updated : Instant) (deadline : Duration) (retries : Int) : Option Instant :=
  (deadline.scale? retries.toNat).bind updated.add?

/-- Whether the due point has passed at `now`. -/
def isOverdue (updated : Instant) (deadline : Duration) (retries : Int) (now : Instant) : Bool :=
  (dueAt? updated deadline retries).any (· < now)

end EventDispatch
