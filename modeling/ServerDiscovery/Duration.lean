/-! # Spans of time

A duration is a whole number of nanoseconds that stays below `2 ^ 64` seconds.  Arithmetic
saturates at both ends: a difference never goes below zero and doubling never passes `longest`.
All of it is stated on the number of nanoseconds, a natural number, so that the laws of the retry
schedule are inequalities between natural numbers.
-/

namespace ServerDiscovery

/-- The number of nanoseconds in a second. -/
def nanosPerSecond : Nat := 1000000000

/-- The number of nanoseconds in a millisecond. -/
def nanosPerMilli : Nat := 1000000

/-- The length of the longest duration in nanoseconds: one nanosecond short of `2 ^ 64` seconds. -/
def longestNanos : Nat := UInt64.size * nanosPerSecond - 1

/-- A span of time in whole nanoseconds. -/
structure Duration where
  nanos : Nat
  nanos_le : nanos ≤ longestNanos
deriving DecidableEq, Repr

namespace Duration

/-- The duration of `n` nanoseconds, or the longest one if that is too long. -/
def ofNanos (n : Nat) : Duration := ⟨min n longestNanos, Nat.min_le_right ..⟩

/-- The duration of `s` seconds and `n` further nanoseconds. -/
def ofSeconds (s : UInt64) (n : Nat) : Duration := ofNanos (s.toNat * nanosPerSecond + n)

/-- The duration of `ms` milliseconds. -/
def ofMillis (ms : UInt64) : Duration := ofNanos (ms.toNat * nanosPerMilli)

/-- No time at all. -/
def zero : Duration := ⟨0, Nat.zero_le _⟩

instance : Inhabited Duration := ⟨zero⟩

/-- Durations are ordered by their length. -/
instance : LE Duration := ⟨fun a b => a.nanos ≤ b.nanos⟩

/-- Durations are ordered by their length. -/
instance : LT Duration := ⟨fun a b => a.nanos < b.nanos⟩

instance (a b : Duration) : Decidable (a ≤ b) := inferInstanceAs (Decidable (a.nanos ≤ b.nanos))

instance (a b : Duration) : Decidable (a < b) := inferInstanceAs (Decidable (a.nanos < b.nanos))

/-- The longer of two durations. -/
instance : Max Duration := ⟨fun a b => if a ≤ b then b else a⟩

/-- Whether no time passes. -/
def isZero (d : Duration) : Bool := d.nanos == 0

/-- Whole seconds. -/
def seconds (d : Duration) : Nat := d.nanos / nanosPerSecond

/-- Nanoseconds beyond the whole seconds. -/
def subsecNanos (d : Duration) : Nat := d.nanos % nanosPerSecond

/-- Whole milliseconds. -/
def millis (d : Duration) : Nat := d.nanos / nanosPerMilli

/-- What is left of `a` after `b`, nothing if `b` is longer. -/
def sub (a b : Duration) : Duration := ⟨a.nanos - b.nanos, Nat.le_trans (Nat.sub_le ..) a.nanos_le⟩

instance : Sub Duration := ⟨sub⟩

/-- Twice `d`, at most the longest duration. -/
def double (d : Duration) : Duration := ofNanos (2 * d.nanos)

/-- The duration in seconds as a floating-point number: the seconds and the fraction are converted
and rounded each on its own before they are added. -/
def toSecondsFloat (d : Duration) : Float :=
  (UInt64.ofNat d.seconds).toFloat + (UInt64.ofNat d.subsecNanos).toFloat / 1e9

@[simp] theorem nanos_ofNanos (n : Nat) : (ofNanos n).nanos = min n longestNanos := rfl

theorem eq_of_nanos {a b : Duration} (h : a.nanos = b.nanos) : a = b := by
  cases a
  cases b
  cases h
  rfl

/-- No number of milliseconds of 64 bits is too long. -/
@[simp] theorem nanos_ofMillis (ms : UInt64) : (ofMillis ms).nanos = ms.toNat * nanosPerMilli := by
  have hlt : ms.toNat < UInt64.size := ms.toNat_lt
  have hle : ms.toNat * nanosPerMilli ≤ longestNanos := by
    unfold longestNanos nanosPerMilli nanosPerSecond
    omega
  exact Nat.min_eq_left hle

@[simp] theorem millis_ofMillis (ms : UInt64) : (ofMillis ms).millis = ms.toNat := by
  rw [millis, nanos_ofMillis]
  exact Nat.mul_div_cancel _ (by decide)

@[simp] theorem nanos_sub (a b : Duration) : (a - b).nanos = a.nanos - b.nanos := rfl

theorem le_def {a b : Duration} : a ≤ b ↔ a.nanos ≤ b.nanos := Iff.rfl

@[simp] theorem nanos_max (a b : Duration) : (max a b).nanos = max a.nanos b.nanos := by
  by_cases h : a ≤ b
  · simpa [max, h] using (Nat.max_eq_right (le_def.1 h)).symm
  · have : b.nanos ≤ a.nanos := Nat.le_of_not_le h
    simpa [max, h] using (Nat.max_eq_left this).symm

end Duration

/-- A reading of a clock that starts at zero and never overflows, in nanoseconds.

The clock of a host has an end, about `2 ^ 63` seconds from its start, and it cannot set a deadline
beyond that.  What is said of an exchange is said as long as its deadlines are earlier. -/
abbrev Instant := Nat

/-- The time from `earlier` to `now`. -/
def Instant.since (now earlier : Instant) : Duration := .ofNanos (now - earlier)

end ServerDiscovery
