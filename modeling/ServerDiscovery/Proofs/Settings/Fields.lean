import ServerDiscovery.Settings.Basic

/-! # Settings, value by value

Settings are made of thirteen values.  What is said of one value and of no other, whether it is
checked or overridden, is said here by its name: `SettingsField.Same` compares two settings in one
value, and settings that are the same in all of them are equal (`Settings.eq_iff_same`).
-/

namespace ServerDiscovery

/-- A value that can be configured. -/
inductive SettingsField where
  | minTimeout
  | tokenGrowth
  | queryGrowth
  | maxBurst
  | masterServers
  | masterTimeout
  | serverTimeout
  | maxBufferSize
  | bindAddress
  | appName
  | level
  | toConsole
  | jsonFormat
deriving DecidableEq, Repr

namespace SettingsField

/-- The values, part by part. -/
def all : List SettingsField :=
  [.minTimeout, .tokenGrowth, .queryGrowth, .maxBurst, .masterServers, .masterTimeout,
    .serverTimeout, .maxBufferSize, .bindAddress, .appName, .level, .toConsole, .jsonFormat]

theorem mem_all (field : SettingsField) : field ∈ all := by
  cases field <;> decide

/-- Two settings have the same value. -/
def Same (field : SettingsField) (s t : Settings) : Prop :=
  match field with
  | .minTimeout => s.retry.minTimeout = t.retry.minTimeout
  | .tokenGrowth => s.retry.tokenGrowth = t.retry.tokenGrowth
  | .queryGrowth => s.retry.queryGrowth = t.retry.queryGrowth
  | .maxBurst => s.retry.maxBurst = t.retry.maxBurst
  | .masterServers => s.discovery.masterServers = t.discovery.masterServers
  | .masterTimeout => s.discovery.masterTimeout = t.discovery.masterTimeout
  | .serverTimeout => s.discovery.serverTimeout = t.discovery.serverTimeout
  | .maxBufferSize => s.transport.maxBufferSize = t.transport.maxBufferSize
  | .bindAddress => s.transport.bindAddress = t.transport.bindAddress
  | .appName => s.logging.appName = t.logging.appName
  | .level => s.logging.level = t.logging.level
  | .toConsole => s.logging.toConsole = t.logging.toConsole
  | .jsonFormat => s.logging.jsonFormat = t.logging.jsonFormat

theorem same_refl (field : SettingsField) (s : Settings) : field.Same s s := by
  cases field <;> rfl

theorem Same.symm {field : SettingsField} {s t : Settings} (h : field.Same s t) :
    field.Same t s := by
  cases field <;> exact Eq.symm h

theorem Same.trans {field : SettingsField} {r s t : Settings} (h : field.Same r s)
    (h' : field.Same s t) : field.Same r t := by
  cases field <;> exact Eq.trans h h'

end SettingsField

/-- Settings are the same if all of their values are. -/
theorem Settings.eq_iff_same {s t : Settings} :
    s = t ↔ ∀ field : SettingsField, field.Same s t := by
  constructor
  · rintro rfl field
    exact field.same_refl s
  · intro h
    obtain ⟨⟨_, _, _, _⟩, ⟨_, _, _⟩, ⟨_, _⟩, ⟨_, _, _, _⟩⟩ := s
    obtain ⟨⟨_, _, _, _⟩, ⟨_, _, _⟩, ⟨_, _⟩, ⟨_, _, _, _⟩⟩ := t
    cases h .minTimeout
    cases h .tokenGrowth
    cases h .queryGrowth
    cases h .maxBurst
    cases h .masterServers
    cases h .masterTimeout
    cases h .serverTimeout
    cases h .maxBufferSize
    cases h .bindAddress
    cases h .appName
    cases h .level
    cases h .toConsole
    cases h .jsonFormat
    rfl

end ServerDiscovery
