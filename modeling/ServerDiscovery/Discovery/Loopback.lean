import ServerDiscovery.Discovery.Network
import ServerDiscovery.Discovery.Responder
import ServerDiscovery.Exchange.Handshake
import ServerDiscovery.Net.AddressText

/-! # A network in memory

Responders at addresses, reached over lines.  Each enquiry begins with the responder as it was set
up.  At an address without a responder there is silence, and on a host without routes there is
nothing at all: no socket can be connected.
-/

namespace ServerDiscovery

/-- A network in memory. -/
structure Loopback where
  /-- Whether the host has a route to its own addresses. -/
  routed : Bool
  responders : List (SocketAddress × Responder)
  /-- The client's half of every token. -/
  client : Nonce

namespace Loopback

/-- A responder that says nothing. -/
def silence : Responder := { nonce := noToken, token := .silent }

/-- The responder at an address. -/
def responderAt (n : Loopback) (address : SocketAddress) : Responder :=
  (n.responders.lookup address).getD silence

/-- The number of attempts that are made for an enquiry: one for each nanosecond of its time, which
is never less than what an attempt takes. -/
def attemptLimit (e : Enquiry) : Nat := (max e.timeout e.policy.minTimeout).nanos + 1

/-- Both exchanges of an enquiry; one that makes no progress is out of time. -/
def exchange (n : Loopback) (e : Enquiry) : Reply Bytes :=
  let line : Line Responder := { peer := n.responderAt e.peer }
  match e.query.fetch n.client (Line.transport Responder.react) e.timeout e.policy (attemptLimit e)
      0 line with
  | some run => ⟨run.result, run.counts⟩
  | none => .failure .timeout

/-- The network: a name is the text of an address, and an enquiry is put to the responder at the
address of the peer. -/
def network (n : Loopback) : Network where
  resolve name :=
    match SocketAddress.ofText? name with
    | some address => .ok address
    | none => .error (.invalidIp name)
  ask e := if n.routed then n.exchange e else .failure (.io .networkUnreachable)

end Loopback

end ServerDiscovery
