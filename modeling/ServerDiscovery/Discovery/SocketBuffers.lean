import ServerDiscovery.Duration

/-! # Socket buffers

How much room the host is asked to reserve for a socket.  A socket to a directory sends bursts, so
it gets room for `datagramsInFlight` datagrams.  A socket to a server gets room to send that grows
with the seconds of its budget, but never less than a datagram, and room to receive one.
-/

namespace ServerDiscovery

/-- The number of datagrams of full size that a burst may have on its way in a socket. -/
def datagramsInFlight : Nat := 16

/-- The sizes asked of the host; `none` leaves its own choice. -/
structure SocketBuffers where
  send : Option UInt64 := none
  receive : Option UInt64 := none
deriving DecidableEq, Repr, Inhabited

namespace SocketBuffers

/-- The buffers of a socket to a directory, at most the largest 64-bit number. -/
def master (size : UInt64) : SocketBuffers :=
  { send := some (UInt64.ofNat (min (size.toNat * datagramsInFlight) (UInt64.size - 1))) }

/-- The buffers of a socket to a server. -/
def server (size : UInt64) (timeout : Duration) : SocketBuffers :=
  let scaled := (size.toFloat * timeout.toSecondsFloat).toUInt64
  { send := some (max scaled size), receive := some size }

end SocketBuffers

end ServerDiscovery
