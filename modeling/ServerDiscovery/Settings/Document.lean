import ServerDiscovery.Decimal.Scientific
import ServerDiscovery.Settings.Basic
import ServerDiscovery.Toml.Value

/-! # Settings as documents

Each part of the settings is a table of a document.  A part that a document leaves out has its
default values, but a part that is there has to be complete.  Entries that mean nothing here are
ignored.  Times are whole numbers of milliseconds.

A part may also be given as an array of its values in order, without their names.

What is wrong first is reported first: the entries are looked at in the order in which they are
written, and only then is a missing one noticed.
-/

namespace ServerDiscovery

open Toml (Value Table)

/-- What is wrong with the document of settings. -/
inductive DocumentFault where
  /-- The text is no document. -/
  | malformed
  /-- An entry has a value of the wrong kind, or out of range. -/
  | wrongValue
  | missingField (name : String)
  | unknownLevel (text : String)
deriving DecidableEq, Repr

/-- What a person is told about a document fault, if there is more to tell than that there is
one. -/
def DocumentFault.detail? : DocumentFault → Option String
  | .missingField name => some ("missing field `" ++ name ++ "`")
  | .unknownLevel text => some ("Invalid log level: " ++ text)
  | _ => none

/-- Settings hold a number that no document can hold. -/
structure Unwritable where
deriving DecidableEq, Repr

/-! ## 1. Reading values -/

namespace FromValue

/-- A whole number that is not negative. -/
def unsigned : Value → Except DocumentFault UInt64
  | .integer n => if 0 ≤ n then .ok (UInt64.ofNat n.toNat) else .error .wrongValue
  | _ => .error .wrongValue

/-- A time in milliseconds. -/
def duration (v : Value) : Except DocumentFault Duration := (unsigned v).map Duration.ofMillis

/-- The floating-point number nearest to an integer. -/
def floatOfInt (n : Int) : Float :=
  if n < 0 then -(Decimal.toFloat ⟨n.natAbs, 0⟩) else Decimal.toFloat ⟨n.natAbs, 0⟩

/-- A number, whole or not. -/
def float : Value → Except DocumentFault Float
  | .float x => .ok x
  | .integer n => .ok (floatOfInt n)
  | _ => .error .wrongValue

/-- A text. -/
def string : Value → Except DocumentFault String
  | .string s => .ok s
  | _ => .error .wrongValue

/-- True or false. -/
def boolean : Value → Except DocumentFault Bool
  | .boolean b => .ok b
  | _ => .error .wrongValue

/-- A list of texts. -/
def strings : Value → Except DocumentFault (List String)
  | .array items => items.mapM string
  | _ => .error .wrongValue

/-- A level, by its name or its place. -/
def level (v : Value) : Except DocumentFault LogLevel := do
  let text ← string v
  match LogLevel.ofText? text with
  | some level => return level
  | none => throw (.unknownLevel text)

end FromValue

/-! ## 2. Parts -/

/-- How a part is read.  A draft of type `δ` holds the values that were found. -/
structure PartReader (δ α : Type) where
  /-- The names of the values, in order. -/
  names : List String
  empty : δ
  /-- Put the value of a name into the draft. -/
  put : δ → String → Value → Except DocumentFault δ
  /-- The part, or the first name whose value was not found. -/
  finish : δ → Except String α

/-- Read named values in order; names that mean nothing are passed over. -/
def PartReader.putAll (r : PartReader δ α) (entries : Table) : Except DocumentFault δ :=
  entries.foldlM (fun draft e => r.put draft e.1 e.2) r.empty

/-- Read a part.  A date is a table that names nothing. -/
def PartReader.read (r : PartReader δ α) : Value → Except DocumentFault α
  | .table entries => do
    let draft ← r.putAll entries
    (r.finish draft).mapError .missingField
  | .datetime _ => (r.finish r.empty).mapError .missingField
  | .array items => do
    let draft ← r.putAll (r.names.zip items)
    (r.finish draft).mapError fun _ => .wrongValue
  | _ => .error .wrongValue

/-- The value that was found, or its name. -/
def found (name : String) : Option α → Except String α
  | some a => .ok a
  | none => .error name

/-- Retry settings of which some values are found. -/
structure RetryDraft where
  minTimeout : Option Duration := none
  tokenGrowth : Option Float := none
  queryGrowth : Option Float := none
  maxBurst : Option UInt64 := none

/-- How retry settings are read. -/
def RetrySettings.reader : PartReader RetryDraft RetrySettings where
  names := ["min_timeout", "token_burst_growth", "request_burst_growth", "max_burst"]
  empty := {}
  put d name v := match name with
    | "min_timeout" => do return { d with minTimeout := some (← FromValue.duration v) }
    | "token_burst_growth" => do return { d with tokenGrowth := some (← FromValue.float v) }
    | "request_burst_growth" => do return { d with queryGrowth := some (← FromValue.float v) }
    | "max_burst" => do return { d with maxBurst := some (← FromValue.unsigned v) }
    | _ => return d
  finish d := do
    return { minTimeout := ← found "min_timeout" d.minTimeout
             tokenGrowth := ← found "token_burst_growth" d.tokenGrowth
             queryGrowth := ← found "request_burst_growth" d.queryGrowth
             maxBurst := ← found "max_burst" d.maxBurst }

/-- Discovery settings of which some values are found. -/
structure DiscoveryDraft where
  masterServers : Option (List String) := none
  masterTimeout : Option Duration := none
  serverTimeout : Option Duration := none

/-- How discovery settings are read. -/
def DiscoverySettings.reader : PartReader DiscoveryDraft DiscoverySettings where
  names := ["master_servers", "master_timeout", "server_timeout"]
  empty := {}
  put d name v := match name with
    | "master_servers" => do return { d with masterServers := some (← FromValue.strings v) }
    | "master_timeout" => do return { d with masterTimeout := some (← FromValue.duration v) }
    | "server_timeout" => do return { d with serverTimeout := some (← FromValue.duration v) }
    | _ => return d
  finish d := do
    return { masterServers := ← found "master_servers" d.masterServers
             masterTimeout := ← found "master_timeout" d.masterTimeout
             serverTimeout := ← found "server_timeout" d.serverTimeout }

/-- Transport settings of which some values are found. -/
structure TransportDraft where
  maxBufferSize : Option UInt64 := none
  bindAddress : Option String := none

/-- How transport settings are read. -/
def TransportSettings.reader : PartReader TransportDraft TransportSettings where
  names := ["max_buffer_size", "bind_address"]
  empty := {}
  put d name v := match name with
    | "max_buffer_size" => do return { d with maxBufferSize := some (← FromValue.unsigned v) }
    | "bind_address" => do return { d with bindAddress := some (← FromValue.string v) }
    | _ => return d
  finish d := do
    return { maxBufferSize := ← found "max_buffer_size" d.maxBufferSize
             bindAddress := ← found "bind_address" d.bindAddress }

/-- Logging settings of which some values are found. -/
structure LoggingDraft where
  appName : Option String := none
  level : Option LogLevel := none
  toConsole : Option Bool := none
  jsonFormat : Option Bool := none

/-- How logging settings are read. -/
def LoggingSettings.reader : PartReader LoggingDraft LoggingSettings where
  names := ["app_name", "log_level", "log_to_console", "json_format"]
  empty := {}
  put d name v := match name with
    | "app_name" => do return { d with appName := some (← FromValue.string v) }
    | "log_level" => do return { d with level := some (← FromValue.level v) }
    | "log_to_console" => do return { d with toConsole := some (← FromValue.boolean v) }
    | "json_format" => do return { d with jsonFormat := some (← FromValue.boolean v) }
    | _ => return d
  finish d := do
    return { appName := ← found "app_name" d.appName
             level := ← found "log_level" d.level
             toConsole := ← found "log_to_console" d.toConsole
             jsonFormat := ← found "json_format" d.jsonFormat }

/-! ## 3. Documents -/

/-- The settings with the part of the given name replaced by what a value says. -/
def Settings.putPart (s : Settings) (name : String) (v : Value) : Except DocumentFault Settings :=
  match name with
  | "retry" => do return { s with retry := ← RetrySettings.reader.read v }
  | "discovery" => do return { s with discovery := ← DiscoverySettings.reader.read v }
  | "transport" => do return { s with transport := ← TransportSettings.reader.read v }
  | "logging" => do return { s with logging := ← LoggingSettings.reader.read v }
  | _ => return s

/-- The settings that a document holds. -/
def Settings.ofTable (document : Table) : Except DocumentFault Settings :=
  document.foldlM (fun s e => s.putPart e.1 e.2) {}

/-! ## 4. Writing -/

/-- A number that a document can hold. -/
def writableInteger (n : Nat) : Except Unwritable Value :=
  if n ≤ Toml.maxInteger then .ok (.integer n) else .error ⟨⟩

/-- A time in whole milliseconds, as a 64-bit number that wraps. -/
def writableDuration (d : Duration) : Except Unwritable Value :=
  writableInteger (d.millis % UInt64.size)

/-- The tables of a document with the settings. -/
def Settings.toTables (s : Settings) : Except Unwritable (List (String × Table)) := do
  return [
    ("retry",
      [("min_timeout", ← writableDuration s.retry.minTimeout),
       ("token_burst_growth", .float s.retry.tokenGrowth),
       ("request_burst_growth", .float s.retry.queryGrowth),
       ("max_burst", ← writableInteger s.retry.maxBurst.toNat)]),
    ("discovery",
      [("master_servers", .array (s.discovery.masterServers.map .string)),
       ("master_timeout", ← writableDuration s.discovery.masterTimeout),
       ("server_timeout", ← writableDuration s.discovery.serverTimeout)]),
    ("transport",
      [("max_buffer_size", ← writableInteger s.transport.maxBufferSize.toNat),
       ("bind_address", .string s.transport.bindAddress)]),
    ("logging",
      [("app_name", .string s.logging.appName),
       ("log_level", .string s.logging.level.name),
       ("log_to_console", .boolean s.logging.toConsole),
       ("json_format", .boolean s.logging.jsonFormat)])]

end ServerDiscovery
