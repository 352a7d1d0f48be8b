import ServerDiscovery.Message.ServerList
import ServerDiscovery.Message.ServerInfo

/-! # What can go wrong

Every failure of this library is a value of `Error`, which names the cause; `Error.message` is the
one place that turns a cause into words.
-/

namespace ServerDiscovery

/-- Why the host's network or file system refused something. -/
inductive IoError where
  | connectionRefused
  | connectionReset
  | timedOut
  | wouldBlock
  | permissionDenied
  | brokenPipe
  | interrupted
  | invalidInput
  | unexpectedEof
  | other
  /-- No route leads to the peer. -/
  | networkUnreachable
  /-- No file has the name. -/
  | noSuchFile
  /-- A file that should hold text holds bytes that are not UTF-8. -/
  | notUtf8
deriving DecidableEq, Repr

/-- What a person is told about an input or output error. -/
def IoError.message : IoError → String
  | .connectionRefused => "connection refused"
  | .connectionReset => "connection reset"
  | .timedOut => "timed out"
  | .wouldBlock => "operation would block"
  | .permissionDenied => "permission denied"
  | .brokenPipe => "broken pipe"
  | .interrupted => "operation interrupted"
  | .invalidInput => "invalid input parameter"
  | .unexpectedEof => "unexpected end of file"
  | .other => "other error"
  | .networkUnreachable => "Network is unreachable (os error 101)"
  | .noSuchFile => "No such file or directory (os error 2)"
  | .notUtf8 => "stream did not contain valid UTF-8"

/-- Why a query failed. -/
inductive Error where
  | io (error : IoError)
  | field (error : Wire.FieldError)
  | kind (error : KindError)
  /-- A datagram was not sent as a whole. -/
  | shortWrite
  /-- The time for an exchange is spent. -/
  | timeout
  /-- The text names no host. -/
  | invalidIp (text : String)
  /-- The number names no port. -/
  | invalidPort (number : Int)
  /-- A datagram of the size of a token response grants no token. -/
  | invalidToken
  | invalidServerList (fault : ListFault)
  | invalidServerInfo (fault : InfoFault)
deriving DecidableEq, Repr

instance decidableEqExcept [DecidableEq ε] [DecidableEq α] : DecidableEq (Except ε α)
  | .error e, .error e' => decidable_of_iff (e = e') (by simp)
  | .error _, .ok _ => isFalse (by simp)
  | .ok _, .error _ => isFalse (by simp)
  | .ok a, .ok a' => decidable_of_iff (a = a') (by simp)

theorem mapError_eq_ok_iff {ε ε' α : Type} {f : ε → ε'} {r : Except ε α} {a : α} :
    r.mapError f = .ok a ↔ r = .ok a := by
  cases r with
  | error e => exact iff_of_false nofun nofun
  | ok b =>
    constructor
    · intro h
      cases h
      rfl
    · intro h
      cases h
      rfl

theorem mapError_eq_error_iff {ε ε' α : Type} {f : ε → ε'} {r : Except ε α} {e' : ε'} :
    r.mapError f = .error e' ↔ ∃ e, r = .error e ∧ f e = e' := by
  cases r with
  | error e =>
    constructor
    · intro h
      cases h
      exact ⟨e, rfl, rfl⟩
    · rintro ⟨_, h, rfl⟩
      cases h
      rfl
  | ok a => exact iff_of_false nofun nofun

theorem bind_eq_ok_iff {ε α β : Type} {r : Except ε α} {next : α → Except ε β} {b : β} :
    (r >>= next) = .ok b ↔ ∃ a, r = .ok a ∧ next a = .ok b := by
  cases r with
  | error e => exact iff_of_false nofun nofun
  | ok a =>
    constructor
    · exact fun h => ⟨a, rfl, h⟩
    · rintro ⟨_, h, hnext⟩
      cases h
      exact hnext

/-- What a person is told about an error. -/
def Error.message : Error → String
  | .io e => "I/O error: " ++ e.message
  | .field e => e.message
  | .kind e => e.message
  | .shortWrite => "invalid write: datagram was not fully sent"
  | .timeout => "exchange timed out"
  | .invalidIp text => "invalid ip address: " ++ text
  | .invalidPort number => "invalid port " ++ toString number ++ ", expected 0..=65535"
  | .invalidToken => "invalid token response"
  | .invalidServerList fault => "invalid server list: " ++ fault.message
  | .invalidServerInfo fault => "invalid server info: " ++ fault.message

end ServerDiscovery
