import ServerDiscovery.Error
import ServerDiscovery.Settings.Document
import ServerDiscovery.Settings.Limits
import ServerDiscovery.Text.Utf8
import ServerDiscovery.Toml.Document
import ServerDiscovery.Toml.Writer

/-! # Settings in files

Settings are loaded from the bytes of a file and saved as the text of one.  What stands between text
and document is a `DocumentFormat`; the laws of loading and saving need no more of it than that it
reads what it wrote.  The format of the library's own files is `Toml.format`.
-/

namespace ServerDiscovery

/-- A way to write documents of sections as text, and to read them. -/
structure DocumentFormat where
  read? : String → Option Toml.Table
  write : List (String × Toml.Table) → String

/-- The format of settings files. -/
def Toml.format : DocumentFormat := ⟨Toml.parse?, Toml.render⟩

/-- Why settings cannot be used. -/
inductive SettingsError where
  | violations (rules : List Violation)
  /-- The file cannot be opened. -/
  | unopened (error : IoError)
  /-- The file holds no text. -/
  | unread (error : IoError)
  | document (fault : DocumentFault)
  | unwritable
  /-- The text is no local address for sockets. -/
  | bindAddress (text : String)
  /-- There is a log already. -/
  | logInstalled

/-- What a person is told about a settings error. -/
def SettingsError.message (e : SettingsError) : String :=
  "Configuration error: " ++ match e with
    | .violations rules =>
      "Configuration validation failed:\n  - "
        ++ String.intercalate "\n  - " (rules.map Violation.message)
    | .unopened e => "Failed to open config file: " ++ e.message
    | .unread e => "Failed to read config file: " ++ e.message
    | .document fault =>
      match fault.detail? with
      | some detail => "Failed to parse TOML: " ++ detail
      | none => "Failed to parse TOML"
    | .unwritable => "Failed to serialize config: out-of-range value for u64 type"
    | .bindAddress text => "Invalid bind address '" ++ text ++ "': invalid socket address syntax"
    | .logInstalled =>
      "Failed to install logger: a global default trace dispatcher has already been set"

namespace Settings

/-- The settings, if they break no rule. -/
def validate (s : Settings) : Except SettingsError Unit :=
  if s.violations.isEmpty then .ok () else .error (.violations s.violations)

/-- The settings that a text holds. -/
def parse (format : DocumentFormat) (text : String) : Except SettingsError Settings :=
  match format.read? text with
  | some document => (ofTable document).mapError .document
  | none => .error (.document .malformed)

/-- The settings in a file, given by its bytes; there may be no such file. -/
def load (format : DocumentFormat) (file : Option Bytes) : Except SettingsError Settings :=
  match file with
  | none => .error (.unopened .noSuchFile)
  | some bytes =>
    match Utf8.decode? bytes with
    | none => .error (.unread .notUtf8)
    | some text => parse format text

/-- The text of a file with the settings. -/
def save (format : DocumentFormat) (s : Settings) : Except SettingsError String :=
  match s.toTables with
  | .ok sections => .ok (format.write sections)
  | .error _ => .error .unwritable

/-- The text of a file with the default settings. -/
def exampleText : String :=
  match save Toml.format {} with
  | .ok text => text
  | .error _ => "# Failed to generate example config"

end Settings

/-- Install a log, unless none is wanted: whether there is one afterwards that was not there
before.  A process has one log for all of its life. -/
def LoggingSettings.install (s : LoggingSettings) (installed : Bool) : Except SettingsError Bool :=
  if !s.toConsole then .ok false
  else if installed then .error .logInstalled
  else .ok true

end ServerDiscovery
