/-!
# Signed durations

**Input.** Amounts of time given as whole seconds and a nanosecond part of the same sign.

**Rule.** A duration is its exact number of nanoseconds, and the seconds it holds fit in a signed
64-bit word. Every operation is exact integer arithmetic on that number: the checked ones answer
`none` where the result is not a duration, the saturating ones stop at the nearest end.

**Contents**

* `Duration`, `Duration.maximum`, `Duration.minimum`
* `Duration.ofNanos?`, `Duration.clamp`, `Duration.ofParts?`, `Duration.ofSeconds`
* `Duration.saturatingAdd`, `Duration.scale?`
* `Duration.text`: the amount written as days, hours, minutes, seconds and below
-/

namespace EventDispatch

/-- Nanoseconds in one second. -/
def nanosPerSecond : Int := 1000000000

/-- The least number of nanoseconds a duration can hold. -/
def Duration.least : Int := -9223372036854775808999999999

/-- The greatest number of nanoseconds a duration can hold. -/
def Duration.greatest : Int := 9223372036854775807999999999

/-- A signed amount of time, exact to the nanosecond. -/
structure Duration where
  /-- The whole amount in nanoseconds. -/
  nanos : Int
  /-- The amount is not below the representable range. -/
  lower : Duration.least ≤ nanos
  /-- The amount is not above the representable range. -/
  upper : nanos ≤ Duration.greatest
deriving DecidableEq

namespace Duration

/-- The longest duration. -/
def maximum : Duration := ⟨greatest, by decide, by decide⟩

/-- The most negative duration. -/
def minimum : Duration := ⟨least, by decide, by decide⟩

/-- No time at all. -/
def zero : Duration := ⟨0, by decide, by decide⟩

instance : Inhabited Duration := ⟨zero⟩

/-- The duration of the given nanoseconds, if it is representable. -/
def ofNanos? (n : Int) : Option Duration :=
  if lower : least ≤ n then
    if upper : n ≤ greatest then some ⟨n, lower, upper⟩ else none
  else none

/-- The representable duration nearest to the given nanoseconds. -/
def clamp (n : Int) : Duration :=
  if lower : least ≤ n then
    if upper : n ≤ greatest then ⟨n, lower, upper⟩ else maximum
  else minimum

/-- The duration of whole seconds and a nanosecond part. -/
def ofParts? (seconds nanos : Int) : Option Duration :=
  ofNanos? (seconds * nanosPerSecond + nanos)

/-- The duration of a number of seconds that fits, and the nearest end for one that does not. -/
def ofSeconds (seconds : Int) : Duration := clamp (seconds * nanosPerSecond)

/-- The duration of a number of minutes. -/
def ofMinutes (minutes : Int) : Duration := ofSeconds (60 * minutes)

/-- Whole seconds, the fraction dropped. -/
def seconds (d : Duration) : Int := d.nanos.tdiv nanosPerSecond

/-- The nanoseconds beyond the whole seconds, with the sign of the duration. -/
def subsecond (d : Duration) : Int := d.nanos.tmod nanosPerSecond

/-- Whole seconds of the amount without its sign. -/
def magnitudeSeconds (d : Duration) : Nat := d.nanos.natAbs / 1000000000

/-- The sum, or the end of the range that the exact sum lies beyond. -/
def saturatingAdd (d e : Duration) : Duration := clamp (d.nanos + e.nanos)

/-- The duration taken `k` times, if it is representable. -/
def scale? (d : Duration) (k : Nat) : Option Duration := ofNanos? (d.nanos * k)

/-- The units of `text` with their sizes in nanoseconds, largest first. -/
def units : List (String × Nat) :=
  [("d", 86400000000000), ("h", 3600000000000), ("m", 60000000000), ("s", 1000000000),
   ("ms", 1000000), ("\u00b5s", 1000), ("ns", 1)]

/-- The non-zero counts of each unit in `n` nanoseconds, written one after the other. -/
def itemsText : List (String × Nat) → Nat → String
  | [], _ => ""
  | (name, size) :: rest, n =>
    (if n / size = 0 then "" else toString (n / size) ++ name) ++ itemsText rest (n % size)

/-- The amount as a reader writes it: `0s`, or a sign and the non-zero units, as in `-1h500ns`. -/
def text (d : Duration) : String :=
  if d.nanos = 0 then "0s"
  else (if d.nanos < 0 then "-" else "") ++ itemsText units d.nanos.natAbs

instance : ToString Duration := ⟨text⟩

@[simp] theorem nanos_maximum : maximum.nanos = greatest := rfl

@[simp] theorem nanos_minimum : minimum.nanos = least := rfl

/-- Two durations with the same nanoseconds are the same. -/
theorem ext {d e : Duration} (h : d.nanos = e.nanos) : d = e := by
  cases d
  cases e
  simpa using h

/-- A checked duration exists exactly for the representable amounts, and holds that amount. -/
theorem ofNanos?_eq_some_iff {n : Int} {d : Duration} :
    ofNanos? n = some d ↔ d.nanos = n := by
  unfold ofNanos?
  constructor
  · intro h
    split at h
    · split at h
      · cases h
        rfl
      · cases h
    · cases h
  · intro h
    subst h
    simp [d.lower, d.upper]

/-- Clamping keeps every representable amount. -/
theorem clamp_nanos (d : Duration) : clamp d.nanos = d := by
  simp [clamp, d.lower, d.upper]

end Duration

end EventDispatch
