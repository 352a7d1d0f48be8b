import ServerDiscovery.Bytes

/-! # Addresses

An address names a host and a port.  Hosts have four octets or sixteen; sixteen octets that begin
with `mappedHead` stand for a host of four.  The two forms are different addresses all the same:
records are kept apart by the address they came from, in the form in which it was given.
-/

namespace ServerDiscovery

/-- A host named by four octets. -/
structure Ipv4 where
  a : UInt8
  b : UInt8
  c : UInt8
  d : UInt8
deriving DecidableEq, Repr, Inhabited

/-- A host named by sixteen octets. -/
structure Ipv6 where
  octets : Bytes
  length_octets : octets.length = 16
deriving DecidableEq, Repr

namespace Ipv4

/-- The octets in order. -/
def octets (ip : Ipv4) : Bytes := [ip.a, ip.b, ip.c, ip.d]

/-- The wildcard host, which stands for every local one. -/
def unspecified : Ipv4 := ⟨0, 0, 0, 0⟩

end Ipv4

namespace Ipv6

/-- The wildcard host, which stands for every local one. -/
def unspecified : Ipv6 := ⟨List.replicate 16 0, rfl⟩

/-- The octets in front of the four of a mapped host. -/
def mappedHead : Bytes := List.replicate 10 0 ++ [0xFF, 0xFF]

/-- The host of sixteen octets that stands for `ip`. -/
def ofIpv4 (ip : Ipv4) : Ipv6 := ⟨mappedHead ++ ip.octets, rfl⟩

/-- The host of four octets that `ip` stands for, if it is a mapped one. -/
def toIpv4? (ip : Ipv6) : Option Ipv4 :=
  if ip.octets.take 12 = mappedHead then
    match ip.octets.drop 12 with
    | [a, b, c, d] => some ⟨a, b, c, d⟩
    | _ => none
  else none

/-- The host with the given octets, if they are sixteen. -/
def ofOctets? (octets : Bytes) : Option Ipv6 :=
  if h : octets.length = 16 then some ⟨octets, h⟩ else none

/-- The octets two by two, as eight numbers. -/
def segments (ip : Ipv6) : List UInt16 := pairs ip.octets
where
  /-- Neighbours joined into 16-bit numbers. -/
  pairs : Bytes → List UInt16
    | high :: low :: rest => ofBigEndian16 high low :: pairs rest
    | _ => []

/-- The host with the given eight numbers. -/
def ofSegments? (segments : List UInt16) : Option Ipv6 := ofOctets? (segments.flatMap bigEndian16)

end Ipv6

/-- A host. -/
inductive IpAddress where
  | v4 (ip : Ipv4)
  | v6 (ip : Ipv6)
deriving DecidableEq, Repr

/-- A host and a port.  A host of sixteen octets may be qualified by the number of the link on
which it is meant. -/
inductive SocketAddress where
  | v4 (ip : Ipv4) (port : UInt16)
  | v6 (ip : Ipv6) (port : UInt16) (scope : UInt32)
deriving DecidableEq, Repr

namespace SocketAddress

instance : Inhabited SocketAddress := ⟨.v4 .unspecified 0⟩

/-- The address of `port` on a host, on no link in particular. -/
def ofIp : IpAddress → UInt16 → SocketAddress
  | .v4 ip, port => .v4 ip port
  | .v6 ip, port => .v6 ip port 0

/-- The port. -/
def port : SocketAddress → UInt16
  | .v4 _ port => port
  | .v6 _ port _ => port

/-- The local address from which `peer` can be reached: `bind`, unless `bind` is the wildcard of
four octets and `peer` a host of sixteen, which calls for the wildcard of sixteen. -/
def localFor (bind peer : SocketAddress) : SocketAddress :=
  match bind, peer with
  | .v4 ip port, .v6 .. => if ip = .unspecified then .v6 .unspecified port 0 else bind
  | _, _ => bind

end SocketAddress

end ServerDiscovery
