import EventDispatch.Time.Instant
import Mathlib.Algebra.Group.Int.Defs
import Mathlib.Logic.Basic

/-!
# Due points are exact

**Input.** Any instant, any signed duration and any count of retries.

**Representation.** A duration is kept as whole seconds in a signed word of 64 bits and less
than one second beyond them, of the same sign; an instant is kept as a second of the calendar
and the nanoseconds since.  A computation in these parts carries from the nanoseconds to the
seconds and then checks the seconds (`Duration.scaleSplit?`, `Instant.addSplit?`).

**Results.** The parts are just another way to write exact amounts, and a computation in them
fails only where the exact amount has no parts (`Duration.split_scale?`, `Instant.split_add?`).
`dueAt?_exact`: an event is due at its exact point, if that lies between the years -9999 and
9999, and never otherwise.  It follows that what is overdue stays overdue, and is so too with
fewer retries.
-/

namespace EventDispatch

/-- The number fits in a signed word of that many bits. -/
def IsWord (bits : Nat) (n : Int) : Prop := -2 ^ (bits - 1) ≤ n ∧ n < 2 ^ (bits - 1)

instance (bits : Nat) (n : Int) : Decidable (IsWord bits n) := inferInstanceAs (Decidable (_ ∧ _))

theorem isWord_64 {n : Int} :
    IsWord 64 n ↔ -9223372036854775808 ≤ n ∧ n < 9223372036854775808 := Iff.rfl

theorem isWord_32 {n : Int} : IsWord 32 n ↔ -2147483648 ≤ n ∧ n < 2147483648 := Iff.rfl

/-! ## The calendar -/

/-- The days of a year.  Every fourth year is a leap year, but of those that end a century only
every fourth. -/
def yearLength (year : Int) : Int :=
  if year % 4 = 0 ∧ (year % 100 ≠ 0 ∨ year % 400 = 0) then 366 else 365

/-- The days from the start of 1970 to the start of `year`. -/
def daysBefore (year : Int) : Int :=
  365 * (year - 1970) + ((year - 1) / 4 - (year - 1) / 100 + (year - 1) / 400) - 477

/-- The second at which `year` starts, counted from the start of 1970. -/
def yearStart (year : Int) : Int := daysBefore year * 86400

theorem daysBefore_1970 : daysBefore 1970 = 0 := rfl

theorem daysBefore_succ (year : Int) :
    daysBefore (year + 1) = daysBefore year + yearLength year := by
  unfold daysBefore yearLength
  split <;> omega

theorem Instant.least_eq : least = yearStart (-9999) * nanosPerSecond := rfl

theorem Instant.greatest_eq : greatest + 1 = yearStart 10000 * nanosPerSecond := rfl

/-! ## Durations in parts -/

namespace Duration

/-- The whole seconds of a duration, and the nanoseconds beyond them. -/
def split (d : Duration) : Int × Int := (d.seconds, d.subsecond)

/-- Less than one second, with the sign of the whole seconds. -/
structure IsBeyond (seconds nanos : Int) : Prop where
  lower : -nanosPerSecond < nanos
  upper : nanos < nanosPerSecond
  nonneg : 0 < seconds → 0 ≤ nanos
  nonpos : seconds < 0 → nanos ≤ 0

theorem isBeyond_tmod (n : Int) : IsBeyond (n.tdiv nanosPerSecond) (n.tmod nanosPerSecond) := by
  have hsum : n.tdiv nanosPerSecond * nanosPerSecond + n.tmod nanosPerSecond = n :=
    Int.tdiv_mul_add_tmod n nanosPerSecond
  have hlower : -nanosPerSecond < n.tmod nanosPerSecond := Int.lt_tmod_of_pos n (by decide)
  have hupper : n.tmod nanosPerSecond < nanosPerSecond := Int.tmod_lt_of_pos n (by decide)
  have hnonneg : 0 ≤ n → 0 ≤ n.tmod nanosPerSecond := Int.tmod_nonneg nanosPerSecond
  have hnonpos : 0 ≤ -n → 0 ≤ -n.tmod nanosPerSecond := by
    rw [← Int.neg_tmod]
    exact Int.tmod_nonneg nanosPerSecond
  unfold nanosPerSecond at *
  exact ⟨hlower, hupper, by omega, by omega⟩

/-- An amount can be taken apart in one way only. -/
theorem IsBeyond.unique {seconds nanos seconds' nanos' : Int} (h : IsBeyond seconds nanos)
    (h' : IsBeyond seconds' nanos')
    (hsame : seconds * nanosPerSecond + nanos = seconds' * nanosPerSecond + nanos') :
    seconds = seconds' ∧ nanos = nanos' := by
  obtain ⟨hlower, hupper, hnonneg, hnonpos⟩ := h
  obtain ⟨hlower', hupper', hnonneg', hnonpos'⟩ := h'
  unfold nanosPerSecond at *
  omega

theorem nanos_eq_split (d : Duration) : d.nanos = d.seconds * nanosPerSecond + d.subsecond :=
  (Int.tdiv_mul_add_tmod d.nanos nanosPerSecond).symm

/-- Parts are those of a duration exactly if the seconds fit in their word. -/
theorem split_ofNanos? {seconds nanos : Int} (h : IsBeyond seconds nanos) :
    (ofNanos? (seconds * nanosPerSecond + nanos)).map split =
      if IsWord 64 seconds then some (seconds, nanos) else none := by
  have hrange : IsWord 64 seconds ↔ least ≤ seconds * nanosPerSecond + nanos ∧
      seconds * nanosPerSecond + nanos ≤ greatest := by
    obtain ⟨hlower, hupper, hnonneg, hnonpos⟩ := h
    rw [isWord_64]
    unfold nanosPerSecond least greatest at *
    omega
  by_cases hfits : IsWord 64 seconds
  · obtain ⟨hlower, hupper⟩ := hrange.1 hfits
    have hparts := (isBeyond_tmod (seconds * nanosPerSecond + nanos)).unique h
      (Int.tdiv_mul_add_tmod _ nanosPerSecond)
    simp only [if_pos hfits, ofNanos?, dif_pos hlower, dif_pos hupper, Option.map_some, split,
      Duration.seconds, subsecond, hparts]
  · rw [if_neg hfits, Option.map_eq_none_iff, Option.eq_none_iff_forall_ne_some]
    intro d hd
    rw [ofNanos?_eq_some_iff] at hd
    exact hfits (hrange.2 (hd ▸ ⟨d.lower, d.upper⟩))

/-- A duration taken `k` times, in its parts.  What the nanoseconds carry is added to the whole
seconds, which have to fit in their word before and after that. -/
def scaleSplit? (d : Int × Int) (k : Int) : Option (Int × Int) :=
  let seconds := d.1 * k + (d.2 * k).tdiv nanosPerSecond
  if IsWord 64 (d.1 * k) ∧ IsWord 64 seconds then some (seconds, (d.2 * k).tmod nanosPerSecond)
  else none

/-- Both parts of a duration have its sign. -/
theorem sign_split (d : Duration) :
    0 ≤ d.seconds ∧ 0 ≤ d.subsecond ∨ d.seconds ≤ 0 ∧ d.subsecond ≤ 0 := by
  obtain ⟨-, -, hnonneg, hnonpos⟩ : IsBeyond d.seconds d.subsecond := isBeyond_tmod d.nanos
  omega

/-- The carry has the sign of the whole seconds, so where they do not fit the sum does not. -/
theorem split_scale? (d : Duration) (k : Nat) :
    (d.scale? k).map split = scaleSplit? d.split k := by
  obtain ⟨hlower, hupper, hnonneg, hnonpos⟩ := isBeyond_tmod (d.subsecond * k)
  have hsum : d.subsecond * k =
      (d.subsecond * k).tdiv nanosPerSecond * nanosPerSecond +
        (d.subsecond * k).tmod nanosPerSecond :=
    (Int.tdiv_mul_add_tmod _ nanosPerSecond).symm
  have hexact : d.nanos * k = d.seconds * k * nanosPerSecond + d.subsecond * k := by
    rw [nanos_eq_split, Int.add_mul, Int.mul_right_comm]
  have hsigns : 0 ≤ d.seconds * k ∧ 0 ≤ d.subsecond * k ∨
      d.seconds * k ≤ 0 ∧ d.subsecond * k ≤ 0 := by
    refine d.sign_split.imp (fun h => ?_) fun h => ?_
    · exact ⟨Int.mul_nonneg h.1 (Int.natCast_nonneg k), Int.mul_nonneg h.2 (Int.natCast_nonneg k)⟩
    · exact ⟨Int.mul_nonpos_of_nonpos_of_nonneg h.1 (Int.natCast_nonneg k),
        Int.mul_nonpos_of_nonpos_of_nonneg h.2 (Int.natCast_nonneg k)⟩
  rw [scale?, show scaleSplit? d.split k = scaleSplit? (d.seconds, d.subsecond) k from rfl]
  unfold scaleSplit?
  dsimp only
  generalize d.seconds * k = whole at *
  generalize d.subsecond * k = product at *
  generalize product.tdiv nanosPerSecond = carry at *
  generalize product.tmod nanosPerSecond = rest at *
  have hbeyond : IsBeyond (whole + carry) rest := by
    unfold nanosPerSecond at *
    exact ⟨hlower, hupper, by omega, by omega⟩
  have hfits : IsWord 64 (whole + carry) ↔ IsWord 64 whole ∧ IsWord 64 (whole + carry) := by
    rw [isWord_64, isWord_64]
    unfold nanosPerSecond at *
    omega
  rw [hexact, show whole * nanosPerSecond + product = (whole + carry) * nanosPerSecond + rest by
    rw [hsum, Int.add_mul]; omega, split_ofNanos? hbeyond]
  exact if_congr hfits rfl rfl

/-- A word of 64 bits holds the nanoseconds of a duration taken any number of 32 bits times. -/
theorem isWord_subsecond_mul (d : Duration) {k : Int} (h : IsWord 32 k) :
    IsWord 64 (d.subsecond * k) := by
  obtain ⟨hlower, hupper, -, -⟩ : IsBeyond d.seconds d.subsecond := isBeyond_tmod d.nanos
  rw [isWord_32] at h
  have hbound : (d.subsecond * k).natAbs ≤ 1000000000 * 2147483648 := by
    rw [Int.natAbs_mul]
    unfold nanosPerSecond at *
    exact Nat.mul_le_mul (by omega) (by omega)
  rw [isWord_64]
  omega

end Duration

/-! ## Instants in parts -/

namespace Instant

/-- The second in which an instant lies, and the nanoseconds since. -/
def split (t : Instant) : Int × Int := (t.seconds, t.subsecond)

/-- The calendar has the second. -/
def InCalendar (second : Int) : Prop := yearStart (-9999) ≤ second ∧ second < yearStart 10000

instance (second : Int) : Decidable (InCalendar second) := inferInstanceAs (Decidable (_ ∧ _))

theorem seconds_eq (t : Instant) : t.seconds = t.nanos / nanosPerSecond :=
  Int.fdiv_eq_ediv_of_nonneg t.nanos (by decide)

theorem subsecond_eq (t : Instant) : t.subsecond = t.nanos % nanosPerSecond :=
  Int.fmod_eq_emod_of_nonneg t.nanos (by decide)

/-- Parts are those of an instant exactly if the calendar has the second. -/
theorem split_ofNanos? {second nanos : Int} (hlower : 0 ≤ nanos) (hupper : nanos < nanosPerSecond) :
    (ofNanos? (second * nanosPerSecond + nanos)).map split =
      if InCalendar second then some (second, nanos) else none := by
  have hrange : InCalendar second ↔ least ≤ second * nanosPerSecond + nanos ∧
      second * nanosPerSecond + nanos ≤ greatest := by
    have hgreatest := greatest_eq
    rw [InCalendar, least_eq]
    unfold nanosPerSecond at *
    omega
  by_cases hhas : InCalendar second
  · obtain ⟨hleast, hgreatest⟩ := hrange.1 hhas
    rw [if_pos hhas]
    simp only [ofNanos?, dif_pos hleast, dif_pos hgreatest, Option.map_some, split, seconds_eq,
      subsecond_eq, Option.some.injEq, Prod.mk.injEq]
    unfold nanosPerSecond at *
    omega
  · rw [if_neg hhas, Option.map_eq_none_iff, Option.eq_none_iff_forall_ne_some]
    intro t ht
    rw [ofNanos?_eq_some_iff] at ht
    exact hhas (hrange.2 (ht ▸ ⟨t.lower, t.upper⟩))

/-- What nanoseconds carry to the seconds if they are out of range by less than one second. -/
def carry (nanos : Int) : Int :=
  if nanos < 0 then -1 else if nanosPerSecond ≤ nanos then 1 else 0

/-- The instant later by a duration, in their parts.  The second is looked up in the calendar
with the carry added. -/
def addSplit? (t d : Int × Int) : Option (Int × Int) :=
  let nanos := t.2 + d.2
  let second := t.1 + d.1 + carry nanos
  if InCalendar second then some (second, nanos - carry nanos * nanosPerSecond) else none

theorem split_add? (t : Instant) (d : Duration) :
    (t.add? d).map split = addSplit? t.split d.split := by
  obtain ⟨hlower, hupper, -, -⟩ : Duration.IsBeyond d.seconds d.subsecond :=
    Duration.isBeyond_tmod d.nanos
  obtain ⟨hsplit, hfrom, hto⟩ : t.nanos = t.seconds * nanosPerSecond + t.subsecond ∧
      0 ≤ t.subsecond ∧ t.subsecond < nanosPerSecond := by
    rw [seconds_eq, subsecond_eq]
    unfold nanosPerSecond
    omega
  have hrest : 0 ≤ t.subsecond + d.subsecond - carry (t.subsecond + d.subsecond) * nanosPerSecond ∧
      t.subsecond + d.subsecond - carry (t.subsecond + d.subsecond) * nanosPerSecond <
        nanosPerSecond := by
    unfold carry nanosPerSecond at *
    split
    · omega
    · split <;> omega
  have hexact : t.nanos + d.nanos =
      (t.seconds + d.seconds + carry (t.subsecond + d.subsecond)) * nanosPerSecond +
        (t.subsecond + d.subsecond -
          carry (t.subsecond + d.subsecond) * nanosPerSecond) := by
    rw [hsplit, d.nanos_eq_split, Int.add_mul, Int.add_mul]
    omega
  rw [add?, hexact, split_ofNanos? hrest.1 hrest.2]
  rfl

end Instant

/-! ## Due points -/

/-- The point at which an event is due, in nanoseconds without bounds. -/
def duePoint (updated : Instant) (deadline : Duration) (retries : Int) : Int :=
  updated.nanos + deadline.nanos * max retries 0

variable {updated : Instant} {deadline : Duration} {retries : Int}

theorem dueAt?_eq_some_iff {t : Instant} :
    dueAt? updated deadline retries = some t ↔ t.nanos = duePoint updated deadline retries := by
  unfold dueAt? duePoint
  rw [← Int.ofNat_toNat, Option.bind_eq_some_iff]
  constructor
  · rintro ⟨wait, hwait, hdue⟩
    rw [Instant.ofNanos?_eq_some_iff.1 hdue, Duration.ofNanos?_eq_some_iff.1 hwait]
  · intro hpoint
    -- The way from one instant to another is far from the ends of the durations.
    have hlower : Duration.least ≤ deadline.nanos * retries.toNat := by
      have hfrom := updated.upper
      have hto := t.lower
      unfold Instant.greatest Instant.least Duration.least at *
      omega
    have hupper : deadline.nanos * retries.toNat ≤ Duration.greatest := by
      have hfrom := updated.lower
      have hto := t.upper
      unfold Instant.greatest Instant.least Duration.greatest at *
      omega
    exact ⟨⟨_, hlower, hupper⟩, Duration.ofNanos?_eq_some_iff.2 rfl,
      Instant.ofNanos?_eq_some_iff.2 hpoint⟩

theorem dueAt?_eq_none_iff :
    dueAt? updated deadline retries = none ↔
      duePoint updated deadline retries < yearStart (-9999) * nanosPerSecond ∨
        yearStart 10000 * nanosPerSecond ≤ duePoint updated deadline retries := by
  rw [← Instant.least_eq, ← Instant.greatest_eq, Option.eq_none_iff_forall_ne_some]
  simp only [ne_eq, dueAt?_eq_some_iff]
  constructor
  · intro hnever
    refine Decidable.byContradiction fun hwithin => ?_
    exact hnever ⟨duePoint updated deadline retries, by omega, by omega⟩ rfl
  · intro hbeyond t ht
    have hlower := t.lower
    have hupper := t.upper
    omega

/-- Being overdue, said of the exact point. -/
theorem isOverdue_iff {now : Instant} :
    isOverdue updated deadline retries now = true ↔
      Instant.least ≤ duePoint updated deadline retries ∧
        duePoint updated deadline retries < now.nanos := by
  simp only [isOverdue, Option.any_eq_true, dueAt?_eq_some_iff, decide_eq_true_eq, Instant.lt_iff]
  constructor
  · rintro ⟨t, ht, hpast⟩
    rw [← ht]
    exact ⟨t.lower, hpast⟩
  · rintro ⟨hlower, hpast⟩
    have hupper := now.upper
    exact ⟨⟨duePoint updated deadline retries, hlower, by omega⟩, rfl, hpast⟩

/-- When an event is due and overdue, in unbounded integers. -/
structure DueExactly (updated : Instant) (deadline : Duration) (retries : Int) : Prop where
  /-- A point at which the event is due is its exact point. -/
  due_iff : ∀ t, dueAt? updated deadline retries = some t ↔
    t.nanos = duePoint updated deadline retries
  /-- The event is never due exactly if that lies outside the years from -9999 to 9999. -/
  never_iff : dueAt? updated deadline retries = none ↔
    duePoint updated deadline retries < yearStart (-9999) * nanosPerSecond ∨
      yearStart 10000 * nanosPerSecond ≤ duePoint updated deadline retries
  /-- A computation in parts, with its carries and checks, has the same outcome. -/
  split : (dueAt? updated deadline retries).map Instant.split =
    (Duration.scaleSplit? deadline.split (max retries 0)).bind (Instant.addSplit? updated.split)
  /-- In that computation the product of the nanoseconds fits if the count is of 32 bits. -/
  product : IsWord 32 retries → IsWord 64 (deadline.subsecond * max retries 0)
  /-- What is overdue stays overdue. -/
  later : ∀ now now', now ≤ now' → isOverdue updated deadline retries now = true →
    isOverdue updated deadline retries now' = true
  /-- Unless the deadline is negative, what is overdue is so too with fewer retries. -/
  fewer : 0 ≤ deadline.nanos → ∀ now fewer, fewer ≤ retries →
    isOverdue updated deadline retries now = true →
    isOverdue updated deadline fewer now = true

/-- For any instant, any signed duration and any count, the due point is computed exactly. -/
theorem dueAt?_exact (updated : Instant) (deadline : Duration) (retries : Int) :
    DueExactly updated deadline retries where
  due_iff t := dueAt?_eq_some_iff
  never_iff := dueAt?_eq_none_iff
  split := by
    rw [← Int.ofNat_toNat, ← Duration.split_scale?, Option.bind_map, dueAt?, Option.map_bind]
    exact Option.bind_congr fun wait _ => updated.split_add? wait
  product hword := by
    refine deadline.isWord_subsecond_mul ?_
    rw [isWord_32] at *
    omega
  later now now' hle hoverdue := by
    rw [isOverdue_iff] at *
    exact ⟨hoverdue.1, Int.lt_of_lt_of_le hoverdue.2 hle⟩
  fewer hdeadline now fewer hfewer hoverdue := by
    rw [isOverdue_iff] at *
    have hshorter : deadline.nanos * max fewer 0 ≤ deadline.nanos * max retries 0 :=
      Int.mul_le_mul_of_nonneg_left (by omega) hdeadline
    have hwait : 0 ≤ deadline.nanos * max fewer 0 := Int.mul_nonneg hdeadline (by omega)
    have hfrom := updated.lower
    unfold duePoint at *
    exact ⟨by omega, by omega⟩

/-- The last nanosecond of the calendar is due, and the next one is not. -/
example : [0, 1, 2].map (fun retries => (dueAt? ⟨Instant.greatest - 1, by decide, by decide⟩
    ⟨1, by decide, by decide⟩ retries).map Instant.split) =
      [some (253402300799, 999999998), some (253402300799, 999999999), none] := rfl

end EventDispatch
