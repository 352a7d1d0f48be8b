import ServerDiscovery.Settings.File

/-! # Settings that break no rule

The rules are listed in the order in which a person is told of the broken ones.  Here they are
turned around: `Settings.Sensible` says what holds of settings that break none, part by part, and
`Settings.violations_eq_nil_iff` that it holds of no others.  Whoever is given settings that were
validated starts from there, and never looks at the list.

Two rules come in pairs of which only the first broken one is listed: a floor of zero is not called
too long, and a small buffer not too large.  Nor can it be both, so a pair reads as its two bounds.
-/

namespace ServerDiscovery

variable {broken : Bool} {v : Violation} {rest : List Violation}

/-! ## 1. Rules -/

theorem reportIf_eq_nil_iff : reportIf broken v = [] ↔ broken = false := by
  unfold reportIf
  cases broken with
  | true => simp
  | false => simp

/-- Of two rules of which the second is looked at only if the first is kept, none is broken exactly
if both are kept. -/
theorem reportFirst_eq_nil_iff {p : Prop} [Decidable p] :
    (if p then [v] else rest) = [] ↔ ¬ p ∧ rest = [] := by
  by_cases h : p
  · simp [h]
  · simp [h]

theorem isGrowth_iff {growth : Float} :
    isGrowth growth = true ↔ growth.isFinite = true ∧ 1.0 ≤ growth := by
  rw [isGrowth, Bool.and_eq_true, decide_eq_true_iff]

theorem Duration.isZero_eq_false_iff {d : Duration} : d.isZero = false ↔ 0 < d.nanos := by
  rw [isZero, beq_eq_false_iff_ne, Nat.pos_iff_ne_zero]

/-! ## 2. Parts -/

/-- Retry settings that break no rule. -/
structure RetrySettings.Sensible (r : RetrySettings) : Prop where
  minTimeout_pos : 0 < r.minTimeout.nanos
  minTimeout_le : r.minTimeout.seconds ≤ maxMinTimeoutSeconds
  tokenGrowth : isGrowth r.tokenGrowth = true
  queryGrowth : isGrowth r.queryGrowth = true
  maxBurst_pos : 0 < r.maxBurst.toNat

theorem RetrySettings.violations_eq_nil_iff {r : RetrySettings} :
    r.violations = [] ↔ r.Sensible := by
  have hburst : decide (r.maxBurst = 0) = false ↔ 0 < r.maxBurst.toNat := by
    rw [decide_eq_false_iff_not, ← UInt64.toNat_inj, Nat.pos_iff_ne_zero]
    rfl
  simp only [violations, List.append_eq_nil_iff, reportFirst_eq_nil_iff, reportIf_eq_nil_iff,
    Bool.not_eq_true, Duration.isZero_eq_false_iff, decide_eq_false_iff_not, Nat.not_lt,
    Bool.not_eq_false', hburst]
  constructor
  · rintro ⟨⟨⟨⟨hpos, hle⟩, htoken⟩, hquery⟩, hburst⟩
    exact ⟨hpos, hle, htoken, hquery, hburst⟩
  · rintro ⟨hpos, hle, htoken, hquery, hburst⟩
    exact ⟨⟨⟨⟨hpos, hle⟩, htoken⟩, hquery⟩, hburst⟩

/-- Discovery settings that break no rule. -/
structure DiscoverySettings.Sensible (d : DiscoverySettings) : Prop where
  masterServers_ne_nil : d.masterServers ≠ []
  masterServers : ∀ address ∈ d.masterServers, isHostAndPort address = true
  masterTimeout_pos : 0 < d.masterTimeout.nanos
  serverTimeout_pos : 0 < d.serverTimeout.nanos

theorem DiscoverySettings.violations_eq_nil_iff {d : DiscoverySettings} :
    d.violations = [] ↔ d.Sensible := by
  simp only [violations, List.append_eq_nil_iff, reportIf_eq_nil_iff, List.map_eq_nil_iff,
    List.filter_eq_nil_iff, List.isEmpty_eq_false_iff, Bool.not_eq_true', Bool.not_eq_false,
    Duration.isZero_eq_false_iff]
  constructor
  · rintro ⟨⟨⟨hne, haddresses⟩, hmaster⟩, hserver⟩
    exact ⟨hne, haddresses, hmaster, hserver⟩
  · rintro ⟨hne, haddresses, hmaster, hserver⟩
    exact ⟨⟨⟨hne, haddresses⟩, hmaster⟩, hserver⟩

/-- Transport settings that break no rule. -/
structure TransportSettings.Sensible (t : TransportSettings) : Prop where
  minBufferSize_le : minBufferSize ≤ t.maxBufferSize.toNat
  le_maxDatagramSize : t.maxBufferSize.toNat ≤ maxDatagramSize
  bindAddress : ∃ bind, SocketAddress.ofText? t.bindAddress = some bind

theorem TransportSettings.violations_eq_nil_iff {t : TransportSettings} :
    t.violations = [] ↔ t.Sensible := by
  simp only [violations, List.append_eq_nil_iff, reportFirst_eq_nil_iff, reportIf_eq_nil_iff,
    decide_eq_false_iff_not, Nat.not_lt, Option.isNone_eq_false_iff, Option.isSome_iff_exists]
  constructor
  · rintro ⟨⟨hsmall, hlarge⟩, hbind⟩
    exact ⟨hsmall, hlarge, hbind⟩
  · rintro ⟨hsmall, hlarge, hbind⟩
    exact ⟨⟨hsmall, hlarge⟩, hbind⟩

/-- Logging settings that break no rule. -/
structure LoggingSettings.Sensible (l : LoggingSettings) : Prop where
  appName_isEmpty : l.appName.isEmpty = false
  appName_le : l.appName.utf8ByteSize ≤ maxAppNameSize

theorem LoggingSettings.violations_eq_nil_iff {l : LoggingSettings} :
    l.violations = [] ↔ l.Sensible := by
  simp only [violations, reportFirst_eq_nil_iff, reportIf_eq_nil_iff, Bool.not_eq_true,
    decide_eq_false_iff_not, Nat.not_lt]
  constructor
  · rintro ⟨hempty, hle⟩
    exact ⟨hempty, hle⟩
  · rintro ⟨hempty, hle⟩
    exact ⟨hempty, hle⟩

/-! ## 3. All settings -/

/-- Settings that break no rule. -/
structure Settings.Sensible (s : Settings) : Prop where
  retry : s.retry.Sensible
  discovery : s.discovery.Sensible
  transport : s.transport.Sensible
  logging : s.logging.Sensible

variable {s : Settings} {e : SettingsError}

theorem Settings.violations_eq_nil_iff : s.violations = [] ↔ s.Sensible := by
  simp only [violations, List.append_eq_nil_iff, RetrySettings.violations_eq_nil_iff,
    DiscoverySettings.violations_eq_nil_iff, TransportSettings.violations_eq_nil_iff,
    LoggingSettings.violations_eq_nil_iff]
  constructor
  · rintro ⟨⟨⟨hretry, hdiscovery⟩, htransport⟩, hlogging⟩
    exact ⟨hretry, hdiscovery, htransport, hlogging⟩
  · rintro ⟨hretry, hdiscovery, htransport, hlogging⟩
    exact ⟨⟨⟨hretry, hdiscovery⟩, htransport⟩, hlogging⟩

/-- **Settings are valid exactly if they are sensible.** -/
theorem Settings.validate_eq_ok_iff : s.validate = .ok () ↔ s.Sensible := by
  rw [← violations_eq_nil_iff, validate, ← List.isEmpty_iff]
  cases s.violations.isEmpty with
  | true => simp
  | false => simp

/-- Settings that are not valid are refused with all rules that they break. -/
theorem Settings.validate_eq_error_iff :
    s.validate = .error e ↔ ¬ s.Sensible ∧ e = .violations s.violations := by
  rw [← violations_eq_nil_iff, validate, ← List.isEmpty_iff]
  cases s.violations.isEmpty with
  | true => simp
  | false => simp [eq_comm]

end ServerDiscovery
