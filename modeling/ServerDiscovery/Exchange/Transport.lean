import ServerDiscovery.Duration
import ServerDiscovery.Error

/-! # Transports

A transport is a connected channel for datagrams that may lose, double, delay and reorder them.  It
is given by what it does to a state: sending takes no time, and receiving waits until a datagram
arrives or the deadline passes.  So the clock moves in `receive` only.

`Transport.Timely` says what every real channel keeps of time: the clock does not run backwards, and
nothing is awaited beyond the deadline.  `Transport.Lawful` adds that no datagram is longer than the
buffer.

Whoever receives hands over a buffer, and a datagram is written to its front.  `overwrite` is what
the buffer holds then; what stood behind stays, so the length of the datagram has to be remembered.
-/

namespace ServerDiscovery

/-- Why a wait brought no datagram. -/
inductive ReceiveFailure where
  /-- Nothing arrived before the deadline. -/
  | silence
  | refused (error : IoError)
deriving DecidableEq, Repr

/-- The outcome of waiting for a datagram. -/
structure Reception (σ : Type) where
  /-- The datagram, cut to the buffer, or why there is none. -/
  outcome : Except ReceiveFailure Bytes
  /-- The time at which the wait ended. -/
  now : Instant
  state : σ

/-- A channel for datagrams with states of type `σ`. -/
structure Transport (σ : Type) where
  /-- Send a datagram at the given time.  The outcome is the number of bytes that went out. -/
  send : σ → Instant → Bytes → Except IoError Nat × σ
  /-- Wait for a datagram of at most `size` bytes from `now` to `deadline`. -/
  receive : σ → (now deadline : Instant) → (size : Nat) → Reception σ

/-- What every channel keeps of time. -/
structure Transport.Timely (t : Transport σ) : Prop where
  now_le : ∀ {s now deadline size}, now ≤ deadline → now ≤ (t.receive s now deadline size).now
  le_deadline : ∀ {s now deadline size}, now ≤ deadline →
    (t.receive s now deadline size).now ≤ deadline

/-- What every channel keeps. -/
structure Transport.Lawful (t : Transport σ) : Prop extends t.Timely where
  length_le : ∀ {s now deadline size d}, (t.receive s now deadline size).outcome = .ok d →
    d.length ≤ size

/-- What a buffer holds after `datagram` is written to its front. -/
def overwrite (buffer datagram : Bytes) : Bytes := datagram ++ buffer.drop datagram.length

@[simp] theorem take_overwrite (buffer datagram : Bytes) :
    (overwrite buffer datagram).take datagram.length = datagram := List.take_left

end ServerDiscovery
