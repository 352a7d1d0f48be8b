/-! # Counters

The library counts what it does.  Each counter is a 64-bit number that wraps.  Exchanges that run at
the same time count into the same counters, so what an exchange does to them is a sequence of
`Count` steps, each of which adds to a single counter at once.
-/

namespace ServerDiscovery

/-- What is counted. -/
structure Metrics where
  /-- Exchanges begun, for tokens and for answers. -/
  exchangesTotal : UInt64 := 0
  /-- Exchanges that ended with a response. -/
  exchangesSuccess : UInt64 := 0
  /-- Exchanges that ran out of time. -/
  exchangesTimedOut : UInt64 := 0
  /-- Exchanges that ended at a failed send. -/
  exchangesFailed : UInt64 := 0
  /-- Datagrams sent, every copy of a burst by itself. -/
  datagramsSent : UInt64 := 0
  datagramsReceived : UInt64 := 0
  bytesSent : UInt64 := 0
  bytesReceived : UInt64 := 0
  /-- Datagrams received and not accepted. -/
  mismatchedResponses : UInt64 := 0
  /-- Directories that answered with a list. -/
  masterServersAnswered : UInt64 := 0
  /-- Servers whose record was collected. -/
  serversDiscovered : UInt64 := 0
deriving DecidableEq, Repr, Inhabited

/-- A single step of counting. -/
inductive Count where
  | exchangeStarted
  | exchangeSucceeded
  | exchangeTimedOut
  | exchangeFailed
  | datagramSent
  | datagramReceived
  | bytesSent (size : UInt64)
  | bytesReceived (size : UInt64)
  | responseMismatched
  | masterServerAnswered
  | serverDiscovered
deriving DecidableEq, Repr

namespace Metrics

/-- The counters after a step. -/
def add (m : Metrics) : Count → Metrics
  | .exchangeStarted => { m with exchangesTotal := m.exchangesTotal + 1 }
  | .exchangeSucceeded => { m with exchangesSuccess := m.exchangesSuccess + 1 }
  | .exchangeTimedOut => { m with exchangesTimedOut := m.exchangesTimedOut + 1 }
  | .exchangeFailed => { m with exchangesFailed := m.exchangesFailed + 1 }
  | .datagramSent => { m with datagramsSent := m.datagramsSent + 1 }
  | .datagramReceived => { m with datagramsReceived := m.datagramsReceived + 1 }
  | .bytesSent size => { m with bytesSent := m.bytesSent + size }
  | .bytesReceived size => { m with bytesReceived := m.bytesReceived + size }
  | .responseMismatched => { m with mismatchedResponses := m.mismatchedResponses + 1 }
  | .masterServerAnswered => { m with masterServersAnswered := m.masterServersAnswered + 1 }
  | .serverDiscovered => { m with serversDiscovered := m.serversDiscovered + 1 }

/-- The counters after several steps. -/
def addAll (m : Metrics) (counts : List Count) : Metrics := counts.foldl add m

end Metrics

namespace Count

/-- The steps for a datagram of `size` bytes that was sent. -/
def sent (size : Nat) : List Count := [.datagramSent, .bytesSent (UInt64.ofNat size)]

/-- The steps for a datagram of `size` bytes that was received. -/
def received (size : Nat) : List Count := [.datagramReceived, .bytesReceived (UInt64.ofNat size)]

end Count

end ServerDiscovery
