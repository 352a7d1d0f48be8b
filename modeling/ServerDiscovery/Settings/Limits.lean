import ServerDiscovery.Decimal.Shortest
import ServerDiscovery.Net.AddressText
import ServerDiscovery.Settings.Basic

/-! # The limits of settings

Which settings are sensible.  Each rule that is broken is a `Violation`, and the violations of
settings are listed in the order of the parts and of the rules in each part, one for each directory
that is badly named.
-/

namespace ServerDiscovery

/-- The longest sensible floor of budgets, in whole seconds. -/
def maxMinTimeoutSeconds : Nat := 10

/-- The size of the largest datagram that the network carries. -/
def maxDatagramSize : Nat := 65507

/-- The length of the longest sensible application name, in bytes. -/
def maxAppNameSize : Nat := 64

/-- A rule that settings break. -/
inductive Violation where
  | minTimeoutZero
  | minTimeoutTooLong
  | tokenGrowth (growth : Float)
  | queryGrowth (growth : Float)
  | maxBurstZero
  | noMasterServer
  | masterServer (address : String)
  | masterTimeoutZero
  | serverTimeoutZero
  | bufferTooSmall (size : UInt64)
  | bufferTooLarge (size : UInt64)
  | bindAddress (address : String)
  | appNameEmpty
  | appNameTooLong (size : Nat)

/-- How factors are spelled in messages. -/
def messageFloat : FloatText := { wholeSuffix := "", nan := "NaN", infinity := "inf" }

/-- What a person is told about a violation. -/
def Violation.message : Violation → String
  | .minTimeoutZero => "Minimum timeout must be greater than 0"
  | .minTimeoutTooLong => "Minimum timeout too long (maximum: 10s)"
  | .tokenGrowth growth =>
    "Token burst growth must be at least 1.0, got " ++ messageFloat.render growth
  | .queryGrowth growth =>
    "Request burst growth must be at least 1.0, got " ++ messageFloat.render growth
  | .maxBurstZero => "Max burst must be greater than 0"
  | .noMasterServer => "At least one master server must be configured"
  | .masterServer address =>
    "Invalid master server address: '" ++ address ++ "' (expected format: 'host:port')"
  | .masterTimeoutZero => "Master timeout must be greater than 0"
  | .serverTimeoutZero => "Server timeout must be greater than 0"
  | .bufferTooSmall size =>
    "Max buffer size too small: " ++ toString size.toNat ++ " (minimum: "
      ++ toString minBufferSize ++ ")"
  | .bufferTooLarge size =>
    "Max buffer size too large: " ++ toString size.toNat ++ " (maximum UDP payload: "
      ++ toString maxDatagramSize ++ ")"
  | .bindAddress address =>
    "Invalid bind address format: '" ++ address ++ "' (expected format: '0.0.0.0:0')"
  | .appNameEmpty => "Application name cannot be empty"
  | .appNameTooLong size =>
    "Application name too long: " ++ toString size ++ " characters (maximum: "
      ++ toString maxAppNameSize ++ ")"

/-! ## 1. The rules -/

/-- Whether a factor lets bursts grow: a finite number of at least one. -/
def isGrowth (growth : Float) : Bool := growth.isFinite && 1.0 ≤ growth

/-- The parts of a text in front of its last colon and behind it. -/
def splitAtLastColon? (text : String) : Option (String × String) :=
  let reversed := text.toList.reverse
  let port := reversed.takeWhile (· ≠ ':')
  match reversed.drop port.length with
  | [] => none
  | _ :: host => some (String.ofList host.reverse, String.ofList port.reverse)

/-- Whether a text names a host and a port. -/
def isHostAndPort (text : String) : Bool :=
  match splitAtLastColon? text with
  | some (host, port) => !host.isEmpty && (Numeral.unsigned? 65535 port).isSome
  | none => false

/-- The violation, if the rule is broken. -/
def reportIf (broken : Bool) (violation : Violation) : List Violation :=
  if broken then [violation] else []

/-- The rules that the retry settings break. -/
def RetrySettings.violations (s : RetrySettings) : List Violation :=
  (if s.minTimeout.isZero then [.minTimeoutZero]
    else reportIf (maxMinTimeoutSeconds < s.minTimeout.seconds) .minTimeoutTooLong)
    ++ reportIf (!isGrowth s.tokenGrowth) (.tokenGrowth s.tokenGrowth)
    ++ reportIf (!isGrowth s.queryGrowth) (.queryGrowth s.queryGrowth)
    ++ reportIf (s.maxBurst = 0) .maxBurstZero

/-- The rules that the discovery settings break. -/
def DiscoverySettings.violations (s : DiscoverySettings) : List Violation :=
  reportIf s.masterServers.isEmpty .noMasterServer
    ++ (s.masterServers.filter (!isHostAndPort ·)).map .masterServer
    ++ reportIf s.masterTimeout.isZero .masterTimeoutZero
    ++ reportIf s.serverTimeout.isZero .serverTimeoutZero

/-- The rules that the transport settings break. -/
def TransportSettings.violations (s : TransportSettings) : List Violation :=
  (if s.maxBufferSize.toNat < minBufferSize then [.bufferTooSmall s.maxBufferSize]
    else reportIf (maxDatagramSize < s.maxBufferSize.toNat) (.bufferTooLarge s.maxBufferSize))
    ++ reportIf (SocketAddress.ofText? s.bindAddress).isNone (.bindAddress s.bindAddress)

/-- The rules that the logging settings break. -/
def LoggingSettings.violations (s : LoggingSettings) : List Violation :=
  if s.appName.isEmpty then [.appNameEmpty]
  else reportIf (maxAppNameSize < s.appName.utf8ByteSize) (.appNameTooLong s.appName.utf8ByteSize)

/-- The rules that settings break. -/
def Settings.violations (s : Settings) : List Violation :=
  s.retry.violations ++ s.discovery.violations ++ s.transport.violations ++ s.logging.violations

end ServerDiscovery
