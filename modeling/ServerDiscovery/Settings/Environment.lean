import ServerDiscovery.Settings.Basic
import ServerDiscovery.Text.Blank
import ServerDiscovery.Text.Utf8

/-! # Settings from the environment

Five variables override a setting each.  A variable that is not set, that is no text, or that names
no number where one is called for leaves the setting as it is; nothing in an environment is an
error.
-/

namespace ServerDiscovery

/-- The values of variables, as the bytes that the host gives. -/
abbrev Environment := String → Option Bytes

namespace Environment

/-- The text of a variable. -/
def text? (env : Environment) (name : String) : Option String := (env name).bind Utf8.decode?

/-- The time that a variable gives in milliseconds. -/
def duration? (env : Environment) (name : String) : Option Duration := do
  let n ← Numeral.unsigned? (UInt64.size - 1) (← env.text? name)
  return .ofMillis (UInt64.ofNat n)

/-- The pieces of a text between its commas. -/
def splitAtCommas : List Char → List (List Char)
  | [] => [[]]
  | c :: cs =>
    if c = ',' then [] :: splitAtCommas cs
    else match splitAtCommas cs with
      | piece :: rest => (c :: piece) :: rest
      | [] => [[c]]

/-- The directories that a variable lists: what stands between commas, without the blanks around
it, unless nothing is left. -/
def masterList (text : String) : List String :=
  (((splitAtCommas text.toList).map Blank.trimEnds).filter (!·.isEmpty)).map String.ofList

/-- The variable that lists the directories. -/
def masterServersName : String := "SERVER_BROWSER_MASTER_SERVERS"

/-- The variable that gives the budget for a directory. -/
def masterTimeoutName : String := "SERVER_BROWSER_MASTER_TIMEOUT_MS"

/-- The variable that gives the budget for a server. -/
def serverTimeoutName : String := "SERVER_BROWSER_SERVER_TIMEOUT_MS"

/-- The variable that gives the floor of budgets. -/
def minTimeoutName : String := "SERVER_BROWSER_MIN_TIMEOUT_MS"

/-- The variable that gives the local address of sockets. -/
def bindAddressName : String := "SERVER_BROWSER_BIND_ADDRESS"

end Environment

/-- The default settings with what the environment overrides. -/
def Settings.ofEnvironment (env : Environment) : Settings where
  retry := { minTimeout := (env.duration? Environment.minTimeoutName).getD defaultMinTimeout }
  discovery :=
    { masterServers :=
        ((env.text? Environment.masterServersName).map Environment.masterList).getD
          defaultMasterServers
      masterTimeout :=
        (env.duration? Environment.masterTimeoutName).getD defaultMasterTimeout
      serverTimeout :=
        (env.duration? Environment.serverTimeoutName).getD defaultServerTimeout }
  transport :=
    { bindAddress :=
        (env.text? Environment.bindAddressName).getD ({} : TransportSettings).bindAddress }

end ServerDiscovery
