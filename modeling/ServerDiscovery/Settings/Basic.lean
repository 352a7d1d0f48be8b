import ServerDiscovery.Decimal.Numeral
import ServerDiscovery.Exchange.Policy

/-! # Settings

Everything that can be configured, in four parts, with the values of a client that was not
configured.  Settings may hold any values at all; the module of the limits says which are sensible.
-/

namespace ServerDiscovery

/-- How much is logged; a level includes those before it. -/
inductive LogLevel where
  | error
  | warn
  | info
  | debug
  | trace
deriving DecidableEq, Repr

namespace LogLevel

/-- The levels, from the fewest messages to the most. -/
def all : List LogLevel := [.error, .warn, .info, .debug, .trace]

/-- The name of a level. -/
def name : LogLevel → String
  | .error => "error"
  | .warn => "warn"
  | .info => "info"
  | .debug => "debug"
  | .trace => "trace"

/-- The level that `text` names: by its name, with letters of either case, or by its place, counted
from one. -/
def ofText? (text : String) : Option LogLevel :=
  match Numeral.unsigned? (UInt64.size - 1) text with
  | some n => if n = 0 then none else all[n - 1]?
  | none => all.find? fun level => level.name == text.map Char.toLower

theorem ofText?_name (level : LogLevel) : ofText? level.name = some level := by
  cases level <;> decide +kernel

end LogLevel

/-- How exchanges retry. -/
structure RetrySettings where
  /-- The floor of every budget, and the window of the first attempt. -/
  minTimeout : Duration := defaultMinTimeout
  /-- By how much the burst grows with each request for a token. -/
  tokenGrowth : Float := 1.2
  /-- By how much the burst grows with each query. -/
  queryGrowth : Float := 2.0
  /-- The largest number of copies in an attempt. -/
  maxBurst : UInt64 := 1024

/-- The directories that are asked unless a configuration says otherwise. -/
def defaultMasterServers : List String :=
  ["master1.teeworlds.com:8283", "master2.teeworlds.com:8283", "master3.teeworlds.com:8283",
    "master4.teeworlds.com:8283"]

/-- Whom to ask, and for how long. -/
structure DiscoverySettings where
  /-- Directories, each as a host, a colon and a port. -/
  masterServers : List String := defaultMasterServers
  /-- The budget for a directory. -/
  masterTimeout : Duration := defaultMasterTimeout
  /-- The budget for a server. -/
  serverTimeout : Duration := defaultServerTimeout

/-- How sockets are set up. -/
structure TransportSettings where
  /-- The size of the largest datagram that is read. -/
  maxBufferSize : UInt64 := UInt64.ofNat defaultBufferSize
  /-- The local address of every socket. -/
  bindAddress : String := "0.0.0.0:0"

/-- What is logged, and where. -/
structure LoggingSettings where
  appName : String := "server-browser"
  level : LogLevel := .info
  toConsole : Bool := true
  jsonFormat : Bool := false

/-- All settings. -/
structure Settings where
  retry : RetrySettings := {}
  discovery : DiscoverySettings := {}
  transport : TransportSettings := {}
  logging : LoggingSettings := {}

instance : Inhabited Settings := ⟨{}⟩

/-- The policy that settings ask for.  The receive buffer is never too small for a server count. -/
def Settings.policy (s : Settings) : RetryPolicy where
  minTimeout := s.retry.minTimeout
  tokenGrowth := s.retry.tokenGrowth
  queryGrowth := s.retry.queryGrowth
  maxBurst := s.retry.maxBurst
  maxResponseSize := max s.transport.maxBufferSize (UInt64.ofNat minBufferSize)

end ServerDiscovery
