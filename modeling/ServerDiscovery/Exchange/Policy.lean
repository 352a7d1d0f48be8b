import ServerDiscovery.Datagram.Layout
import ServerDiscovery.Duration

/-! # The retry policy

Datagrams get lost, so an exchange sends its request again and again until its time is spent.  Each
attempt waits longer than the one before and sends more copies.  This module holds the three rules
of that schedule:

* `Budget`: how much time there is, never less than a floor;
* `nextWindow`: how long the next attempt waits.  Windows double as long as the doubled window
  does not have to be cut, and then shrink to what is left;
* `RetryPolicy.copies`: how many copies an attempt sends, between one and the largest burst whatever
  the accumulated factor is.
-/

namespace ServerDiscovery

/-! ## 1. Tuning -/

/-- The default floor of a budget and first window. -/
def defaultMinTimeout : Duration := .ofMillis 35

/-- The default budget for a directory. -/
def defaultMasterTimeout : Duration := .ofSeconds 5 0

/-- The default budget for a server. -/
def defaultServerTimeout : Duration := .ofSeconds 16 0

/-- How an exchange retries. -/
structure RetryPolicy where
  /-- The floor of every budget, and the window of the first attempt. -/
  minTimeout : Duration
  /-- By how much the burst grows with each request for a token. -/
  tokenGrowth : Float
  /-- By how much the burst grows with each query. -/
  queryGrowth : Float
  /-- The largest number of copies in an attempt. -/
  maxBurst : UInt64
  /-- The size of the receive buffer. -/
  maxResponseSize : UInt64

/-- The policy of a client that was not configured. -/
def RetryPolicy.default : RetryPolicy where
  minTimeout := defaultMinTimeout
  tokenGrowth := 1.2
  queryGrowth := 2.0
  maxBurst := 1024
  maxResponseSize := UInt64.ofNat defaultBufferSize

instance : Inhabited RetryPolicy := ⟨.default⟩

/-- The number of copies for an accumulated factor: its whole part, at least one and at most the
largest burst.  A factor that is no number counts as one. -/
def RetryPolicy.copies (policy : RetryPolicy) (factor : Float) : Nat :=
  max 1 (min factor.toUInt64.toNat (max 1 policy.maxBurst.toNat))

theorem RetryPolicy.one_le_copies (policy : RetryPolicy) (factor : Float) :
    1 ≤ policy.copies factor := Nat.le_max_left ..

theorem RetryPolicy.copies_le (policy : RetryPolicy) (factor : Float) :
    policy.copies factor ≤ max 1 policy.maxBurst.toNat := by
  unfold RetryPolicy.copies
  omega

/-! ## 2. Time -/

/-- The time that an exchange may take, from when it began. -/
structure Budget where
  started : Instant
  total : Duration
deriving DecidableEq, Repr

namespace Budget

/-- A budget that begins now, raised to `floor` if it is smaller. -/
def start (now : Instant) (total floor : Duration) : Budget := ⟨now, max total floor⟩

/-- The time that is spent. -/
def elapsed (b : Budget) (now : Instant) : Duration := Instant.since now b.started

/-- The time that is left, none once the budget is spent. -/
def remaining (b : Budget) (now : Instant) : Duration := b.total - b.elapsed now

/-- Whether the budget is spent. -/
def isExhausted (b : Budget) (now : Instant) : Bool := (b.remaining now).isZero

@[simp] theorem nanos_remaining (b : Budget) (now : Instant) :
    (b.remaining now).nanos = b.total.nanos - (now - b.started) := by
  have := b.total.nanos_le
  simp only [remaining, elapsed, Instant.since, Duration.nanos_sub, Duration.nanos_ofNanos]
  omega

theorem isExhausted_eq_true_iff {b : Budget} {now : Instant} :
    b.isExhausted now = true ↔ b.total.nanos ≤ now - b.started := by
  simp only [isExhausted, Duration.isZero, beq_iff_eq, nanos_remaining]
  omega

theorem isExhausted_eq_false_iff {b : Budget} {now : Instant} :
    b.isExhausted now = false ↔ now - b.started < b.total.nanos := by
  rw [← Bool.not_eq_true, isExhausted_eq_true_iff, Nat.not_le]

end Budget

/-- The window after `current` with `remaining` left: twice as long, or exactly what is left if that
is no more than `current`. -/
def nextWindow (current remaining : Duration) : Duration :=
  if remaining ≤ current then remaining else current.double

theorem nanos_nextWindow (current remaining : Duration) :
    (nextWindow current remaining).nanos =
      if remaining.nanos ≤ current.nanos then remaining.nanos
      else min (2 * current.nanos) longestNanos := by
  unfold nextWindow
  by_cases h : remaining ≤ current
  · rw [if_pos h, if_pos (Duration.le_def.mp h)]
  · rw [if_neg h, if_neg fun h' => h (Duration.le_def.mpr h')]
    rfl

end ServerDiscovery
