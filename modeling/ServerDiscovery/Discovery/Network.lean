import ServerDiscovery.Discovery.SocketBuffers
import ServerDiscovery.Error
import ServerDiscovery.Exchange.Policy
import ServerDiscovery.Metrics

/-! # Networks

All that a client needs of a network: it turns the name of a directory into an address, and it
carries out enquiries.  An enquiry is a query to one peer over a socket of its own, with everything
that the host has to know to open that socket; its reply is the datagram that answers the query, or
the reason why there is none.
-/

namespace ServerDiscovery

/-- A query to one peer. -/
structure Enquiry where
  query : Query
  /-- The local address of the socket. -/
  source : SocketAddress
  peer : SocketAddress
  buffers : SocketBuffers
  timeout : Duration
  policy : RetryPolicy

/-- How something ended that was asked of a network, and what was counted on the way. -/
structure Reply (α : Type) where
  outcome : Except Error α
  counts : List Count := []

namespace Reply

/-- A failure before anything was sent. -/
def failure (error : Error) : Reply α := { outcome := .error error }

/-- The reply with its datagram read. -/
def reading (r : Reply α) (read : α → Except Error β) : Reply β :=
  { r with outcome := r.outcome.bind read }

end Reply

/-- A network. -/
structure Network where
  /-- The address of a directory that is given as a host, a colon and a port. -/
  resolve : String → Except Error SocketAddress
  ask : Enquiry → Reply Bytes

end ServerDiscovery
