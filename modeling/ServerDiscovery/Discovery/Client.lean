import ServerDiscovery.Discovery.FanOut
import ServerDiscovery.Net.AddressText
import ServerDiscovery.Settings.File

/-! # The client

The entry point of the library.  A client asks one directory or one server, or discovers all servers
that its directories know.  Its policy and its local address are fixed when it is made from
settings, which it refuses if they break a rule.
-/

namespace ServerDiscovery

/-- A client of directories and servers. -/
structure Client where
  settings : Settings
  policy : RetryPolicy
  /-- The local address of every socket. -/
  bind : SocketAddress

namespace Client

/-- A client with default settings. -/
def default : Client := ⟨{}, .default, .v4 .unspecified 0⟩

instance : Inhabited Client := ⟨default⟩

/-- The client that settings ask for. -/
def ofSettings (s : Settings) : Except SettingsError Client := do
  s.validate
  match SocketAddress.ofText? s.transport.bindAddress with
  | some bind => return ⟨s, s.policy, bind⟩
  | none => throw (.bindAddress s.transport.bindAddress)

/-! ## 1. One peer -/

/-- The enquiry for `query` at `peer`. -/
def enquiry (c : Client) (query : Query) (peer : SocketAddress) (buffers : SocketBuffers)
    (timeout : Duration) : Enquiry :=
  { query, source := .localFor c.bind peer, peer, buffers, timeout, policy := c.policy }

/-- The servers that a directory lists. -/
def serverList (c : Client) (n : Network) (master : SocketAddress) (timeout : Duration) :
    Reply (List SocketAddress) :=
  (n.ask (c.enquiry .serverList master (.master c.policy.maxResponseSize) timeout)).reading
    fun response => (parseServerList response).mapError .invalidServerList

/-- The number of servers that a directory lists. -/
def serverCount (c : Client) (n : Network) (master : SocketAddress) (timeout : Duration) :
    Reply UInt16 :=
  (n.ask (c.enquiry .serverCount master (.master c.policy.maxResponseSize) timeout)).reading
    fun response => (parseServerCount response).mapError .kind

/-- The record of the server at an address. -/
def serverInfoAt (c : Client) (n : Network) (server : SocketAddress) (timeout : Duration) :
    Reply ServerInfo :=
  (n.ask (c.enquiry .serverInfo server (.server c.policy.maxResponseSize timeout) timeout)).reading
    fun response => (parseServerInfo response server).mapError .invalidServerInfo

/-- The address that a host and a port name; a bad host is reported before a bad port. -/
def addressOf (host : String) (port : Int) : Except Error SocketAddress :=
  match IpAddress.ofText? host with
  | none => .error (.invalidIp host)
  | some ip =>
    if 0 ≤ port ∧ port ≤ 65535 then .ok (.ofIp ip (UInt16.ofNat port.toNat))
    else .error (.invalidPort port)

/-- The record of the server at a host and a port, with at least the time of one attempt. -/
def serverInfoWithin (c : Client) (n : Network) (host : String) (port : Int) (timeout : Duration) :
    Reply ServerInfo :=
  match addressOf host port with
  | .ok server => c.serverInfoAt n server (max timeout c.policy.minTimeout)
  | .error e => .failure e

/-- The record of the server at a host and a port, in the time that the settings allow. -/
def serverInfo (c : Client) (n : Network) (host : String) (port : Int) : Reply ServerInfo :=
  c.serverInfoWithin n host port c.settings.discovery.serverTimeout

/-! ## 2. All peers -/

/-- How the client fans out. -/
def fanOut (c : Client) (n : Network) (masterTimeout serverTimeout : Duration) : FanOut where
  resolve := n.resolve
  list master := c.serverList n master masterTimeout
  info server := c.serverInfoAt n server serverTimeout

/-- All servers that the directories of the settings know, with a budget for each enquiry. -/
def discoverWithin (c : Client) (n : Network) (masterTimeout serverTimeout : Duration) :
    Discovery :=
  (c.fanOut n masterTimeout serverTimeout).discover c.settings.discovery.masterServers

/-- All servers that the directories of the settings know, in the time that the settings allow. -/
def discover (c : Client) (n : Network) : Discovery :=
  c.discoverWithin n c.settings.discovery.masterTimeout c.settings.discovery.serverTimeout

end Client

end ServerDiscovery
