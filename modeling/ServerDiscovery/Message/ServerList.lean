import ServerDiscovery.Datagram.Layout
import ServerDiscovery.Net.Address

/-! # Server lists

A directory answers with entries of eighteen bytes: the sixteen octets of a host and the port.  A
mapped host is given as the host of four octets that it stands for, so one server never appears in
two forms.

The number of servers is answered in two bytes.
-/

namespace ServerDiscovery

/-- The size of an entry. -/
def entrySize : Nat := 18

/-- What can be wrong with a server list. -/
inductive ListFault where
  | kind (error : KindError)
  /-- The payload has `size` bytes, which is no whole number of entries. -/
  | ragged (size : Nat)
deriving DecidableEq, Repr

/-- What a person is told about a list fault. -/
def ListFault.message : ListFault → String
  | .kind e => e.message
  | .ragged size =>
    "payload of " ++ toString size ++ " bytes is not a multiple of " ++ toString entrySize

namespace SocketAddress

/-- The address of an entry. -/
def ofEntry (ip : Ipv6) (port : UInt16) : SocketAddress :=
  match ip.toIpv4? with
  | some mapped => .v4 mapped port
  | none => .v6 ip port 0

/-- The entry of an address. -/
def toEntry : SocketAddress → Bytes
  | .v4 ip port => (Ipv6.ofIpv4 ip).octets ++ bigEndian16 port
  | .v6 ip port _ => ip.octets ++ bigEndian16 port

end SocketAddress

/-- The addresses of whole entries, in order. -/
def readEntries : Bytes → List SocketAddress
  | o₀ :: o₁ :: o₂ :: o₃ :: o₄ :: o₅ :: o₆ :: o₇ :: o₈ :: o₉ :: o₁₀ :: o₁₁ :: o₁₂ :: o₁₃ :: o₁₄
      :: o₁₅ :: high :: low :: rest =>
    .ofEntry ⟨[o₀, o₁, o₂, o₃, o₄, o₅, o₆, o₇, o₈, o₉, o₁₀, o₁₁, o₁₂, o₁₃, o₁₄, o₁₅], rfl⟩
      (ofBigEndian16 high low) :: readEntries rest
  | _ => []

/-- The addresses that a directory answers with. -/
def parseServerList (response : Bytes) : Except ListFault (List SocketAddress) :=
  match expectKind (.answer .serverList) response with
  | .error e => .error (.kind e)
  | .ok () =>
    if (payload response).length % entrySize = 0 then .ok (readEntries (payload response))
    else .error (.ragged (payload response).length)

/-- The number of servers that a directory answers with: the first two bytes of the payload, which
may be longer. -/
def parseServerCount (response : Bytes) : Except KindError UInt16 :=
  match expectKind (.answer .serverCount) response with
  | .error e => .error e
  | .ok () =>
    match payload response with
    | high :: low :: _ => .ok (ofBigEndian16 high low)
    | _ => .error .unrecognized

end ServerDiscovery
