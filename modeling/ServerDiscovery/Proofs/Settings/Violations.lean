import Mathlib.Data.List.Basic
import Mathlib.Data.List.Pairwise
import ServerDiscovery.Proofs.Settings.Fields
import ServerDiscovery.Proofs.Settings.HostAndPort
import ServerDiscovery.Proofs.Settings.Limits

/-! # Which violations are listed

`Violation.Holds` says in numbers what each violation complains of.  The list of violations holds
exactly those that are true of the settings (`Settings.mem_violations_iff`), in the order of the
values that they are about, and each value has at most one, except that each directory which is
badly named has its own.  A violation is about one value and depends on no other
(`Settings.violations_eq_flatMap`), so mending a value removes its violations and nothing else.

What the rules allow is not quite what they say.  A floor is called too long for a maximum of ten
seconds, but it is cut to whole seconds before it is compared, so that almost eleven seconds pass.
An application name is called too long for a maximum of 64 characters, but it is measured in bytes.
`Settings.KeepsLimits` is stated for any longest floor and any measure of names, and
`Settings.violations_exact` says how the limits that are meant and those that are enforced compare.
-/

namespace ServerDiscovery

/-! ## 1. Violations and values -/

/-- The value that a violation is about. -/
def Violation.field : Violation → SettingsField
  | .minTimeoutZero => .minTimeout
  | .minTimeoutTooLong => .minTimeout
  | .tokenGrowth _ => .tokenGrowth
  | .queryGrowth _ => .queryGrowth
  | .maxBurstZero => .maxBurst
  | .noMasterServer => .masterServers
  | .masterServer _ => .masterServers
  | .masterTimeoutZero => .masterTimeout
  | .serverTimeoutZero => .serverTimeout
  | .bufferTooSmall _ => .maxBufferSize
  | .bufferTooLarge _ => .maxBufferSize
  | .bindAddress _ => .bindAddress
  | .appNameEmpty => .appName
  | .appNameTooLong _ => .appName

/-- The violation is true of the settings. -/
def Violation.Holds (v : Violation) (s : Settings) : Prop :=
  match v with
  | .minTimeoutZero => s.retry.minTimeout.nanos = 0
  | .minTimeoutTooLong => 11 * nanosPerSecond ≤ s.retry.minTimeout.nanos
  | .tokenGrowth growth =>
    growth = s.retry.tokenGrowth ∧
      ¬ (s.retry.tokenGrowth.isFinite = true ∧ 1.0 ≤ s.retry.tokenGrowth)
  | .queryGrowth growth =>
    growth = s.retry.queryGrowth ∧
      ¬ (s.retry.queryGrowth.isFinite = true ∧ 1.0 ≤ s.retry.queryGrowth)
  | .maxBurstZero => s.retry.maxBurst.toNat = 0
  | .noMasterServer => s.discovery.masterServers = []
  | .masterServer address => address ∈ s.discovery.masterServers ∧ ¬ NamesHostAndPort address
  | .masterTimeoutZero => s.discovery.masterTimeout.nanos = 0
  | .serverTimeoutZero => s.discovery.serverTimeout.nanos = 0
  | .bufferTooSmall size =>
    size = s.transport.maxBufferSize ∧ s.transport.maxBufferSize.toNat < 19
  | .bufferTooLarge size =>
    size = s.transport.maxBufferSize ∧ 65507 < s.transport.maxBufferSize.toNat
  | .bindAddress text =>
    text = s.transport.bindAddress ∧
      ∀ address, SocketAddress.ofText? s.transport.bindAddress ≠ some address
  | .appNameEmpty => s.logging.appName = ""
  | .appNameTooLong size =>
    size = s.logging.appName.utf8ByteSize ∧ 64 < s.logging.appName.utf8ByteSize

/-- The rules on one value that the settings break. -/
def SettingsField.violations (field : SettingsField) (s : Settings) : List Violation :=
  match field with
  | .minTimeout =>
    if s.retry.minTimeout.isZero then [.minTimeoutZero]
    else reportIf (maxMinTimeoutSeconds < s.retry.minTimeout.seconds) .minTimeoutTooLong
  | .tokenGrowth => reportIf (!isGrowth s.retry.tokenGrowth) (.tokenGrowth s.retry.tokenGrowth)
  | .queryGrowth => reportIf (!isGrowth s.retry.queryGrowth) (.queryGrowth s.retry.queryGrowth)
  | .maxBurst => reportIf (s.retry.maxBurst = 0) .maxBurstZero
  | .masterServers =>
    reportIf s.discovery.masterServers.isEmpty .noMasterServer
      ++ (s.discovery.masterServers.filter (!isHostAndPort ·)).map .masterServer
  | .masterTimeout => reportIf s.discovery.masterTimeout.isZero .masterTimeoutZero
  | .serverTimeout => reportIf s.discovery.serverTimeout.isZero .serverTimeoutZero
  | .maxBufferSize =>
    if s.transport.maxBufferSize.toNat < minBufferSize then
      [.bufferTooSmall s.transport.maxBufferSize]
    else reportIf (maxDatagramSize < s.transport.maxBufferSize.toNat)
      (.bufferTooLarge s.transport.maxBufferSize)
  | .bindAddress =>
    reportIf (SocketAddress.ofText? s.transport.bindAddress).isNone
      (.bindAddress s.transport.bindAddress)
  | .appName => s.logging.violations
  | .level => []
  | .toConsole => []
  | .jsonFormat => []

variable {s t : Settings} {field other : SettingsField} {v w : Violation} {broken : Bool}

/-- **Settings break the rules on their values, one value after another.** -/
theorem Settings.violations_eq_flatMap (s : Settings) :
    s.violations = SettingsField.all.flatMap fun field => field.violations s := by
  simp [violations, RetrySettings.violations, DiscoverySettings.violations,
    TransportSettings.violations, SettingsField.all, SettingsField.violations]

theorem mem_reportIf_iff : v ∈ reportIf broken w ↔ broken = true ∧ v = w := by
  unfold reportIf
  cases broken with
  | true => simp
  | false => simp

/-- Of two rules of which the second is looked at only if the first is kept. -/
theorem mem_reportFirst_iff {p : Prop} [Decidable p] {rest : List Violation} :
    v ∈ (if p then [w] else rest) ↔ (p ∧ v = w) ∨ (¬ p ∧ v ∈ rest) := by
  by_cases h : p
  · simp [h]
  · simp [h]

theorem Duration.isZero_iff {d : Duration} : d.isZero = true ↔ d.nanos = 0 := by
  rw [isZero, beq_iff_eq]

theorem not_isGrowth_iff {growth : Float} :
    (!isGrowth growth) = true ↔ ¬ (growth.isFinite = true ∧ 1.0 ≤ growth) := by
  rw [Bool.not_eq_true', ← Bool.not_eq_true, isGrowth_iff]

/-- A rule is reported exactly if it is broken. -/
theorem mem_violations_field_iff : v ∈ v.field.violations s ↔ v.Holds s := by
  cases v with
  | minTimeoutTooLong =>
    have hseconds : maxMinTimeoutSeconds < s.retry.minTimeout.seconds ↔
        11 * nanosPerSecond ≤ s.retry.minTimeout.nanos := by
      unfold maxMinTimeoutSeconds Duration.seconds nanosPerSecond
      omega
    simp only [Violation.field, SettingsField.violations, Violation.Holds, mem_reportFirst_iff,
      mem_reportIf_iff, Duration.isZero_iff, decide_eq_true_eq, reduceCtorEq, and_false, false_or,
      and_true, hseconds]
    constructor
    · rintro ⟨-, hlong⟩
      exact hlong
    · intro hlong
      refine ⟨fun hzero => ?_, hlong⟩
      rw [hzero] at hlong
      cases hlong
  | bufferTooLarge size =>
    simp only [Violation.field, SettingsField.violations, Violation.Holds, mem_reportFirst_iff,
      mem_reportIf_iff, Violation.bufferTooLarge.injEq, reduceCtorEq, and_false, false_or,
      decide_eq_true_eq]
    constructor
    · rintro ⟨-, hlarge, hsize⟩
      exact ⟨hsize, hlarge⟩
    · rintro ⟨hsize, hlarge⟩
      have hmin : minBufferSize = 19 := rfl
      exact ⟨by omega, hlarge, hsize⟩
  | appNameTooLong size =>
    simp only [Violation.field, SettingsField.violations, LoggingSettings.violations,
      Violation.Holds, mem_reportFirst_iff, mem_reportIf_iff, Violation.appNameTooLong.injEq,
      reduceCtorEq, and_false, false_or, decide_eq_true_eq]
    constructor
    · rintro ⟨-, hlong, hsize⟩
      exact ⟨hsize, hlong⟩
    · rintro ⟨hsize, hlong⟩
      refine ⟨fun hempty => ?_, hlong, hsize⟩
      rw [String.isEmpty_iff] at hempty
      rw [hempty] at hlong
      cases hlong
  -- the other rules are reported by themselves, or first
  | maxBurstZero =>
    simp [Violation.field, SettingsField.violations, Violation.Holds, mem_reportIf_iff,
      ← UInt64.toNat_inj]
  | bufferTooSmall size =>
    simp only [Violation.field, SettingsField.violations, Violation.Holds, mem_reportFirst_iff,
      mem_reportIf_iff, Violation.bufferTooSmall.injEq, reduceCtorEq, and_false, or_false]
    exact and_comm
  | bindAddress text =>
    simp only [Violation.field, SettingsField.violations, Violation.Holds, mem_reportIf_iff,
      Option.isNone_iff_eq_none, Option.eq_none_iff_forall_ne_some, Violation.bindAddress.injEq]
    exact and_comm
  | tokenGrowth growth | queryGrowth growth =>
    simp only [Violation.field, SettingsField.violations, Violation.Holds, mem_reportIf_iff,
      not_isGrowth_iff, Violation.tokenGrowth.injEq, Violation.queryGrowth.injEq]
    exact and_comm
  | minTimeoutZero | noMasterServer | masterServer | masterTimeoutZero | serverTimeoutZero
      | appNameEmpty =>
    simp [Violation.field, SettingsField.violations, LoggingSettings.violations, Violation.Holds,
      mem_reportFirst_iff, mem_reportIf_iff, Duration.isZero_iff, ← isHostAndPort_iff]

theorem field_eq_of_mem_reportIf (h : v ∈ reportIf broken w) : v.field = w.field := by
  obtain ⟨-, rfl⟩ := mem_reportIf_iff.mp h
  rfl

theorem field_eq_of_mem_violations (h : v ∈ field.violations s) : v.field = field := by
  cases field with
  | minTimeout | maxBufferSize | appName =>
    rcases mem_reportFirst_iff.mp h with ⟨-, rfl⟩ | ⟨-, hsecond⟩
    · rfl
    · exact field_eq_of_mem_reportIf hsecond
  | masterServers =>
    rcases List.mem_append.mp h with hnone | hbad
    · exact field_eq_of_mem_reportIf hnone
    · obtain ⟨address, -, rfl⟩ := List.mem_map.mp hbad
      rfl
  | tokenGrowth | queryGrowth | maxBurst | masterTimeout | serverTimeout | bindAddress =>
    exact field_eq_of_mem_reportIf h
  | level | toConsole | jsonFormat => cases h

/-- **A violation is listed exactly if it is true of the settings.** -/
theorem Settings.mem_violations_iff : v ∈ s.violations ↔ v.Holds s := by
  rw [violations_eq_flatMap, List.mem_flatMap, ← mem_violations_field_iff]
  constructor
  · rintro ⟨field, -, hv⟩
    rw [field_eq_of_mem_violations hv]
    exact hv
  · intro hv
    exact ⟨v.field, v.field.mem_all, hv⟩

/-! ## 2. Order -/

/-- Where a value stands among all of them: part by part. -/
def SettingsField.place (field : SettingsField) : Nat := all.idxOf field

/-- A violation is about an earlier value than another, unless both are about the directories. -/
def Violation.Before (v w : Violation) : Prop :=
  v.field.place < w.field.place ∨ (v.field = .masterServers ∧ w.field = .masterServers)

theorem length_reportIf_le : (reportIf broken w).length ≤ 1 := by
  unfold reportIf
  cases broken with
  | true => rfl
  | false => exact Nat.zero_le 1

theorem length_reportFirst_le {p : Prop} [Decidable p] {rest : List Violation}
    (h : rest.length ≤ 1) : (if p then [v] else rest).length ≤ 1 := by
  split
  · rfl
  · exact h

/-- Only of the directories more than one rule can be broken. -/
theorem length_violations_le (h : field ≠ .masterServers) : (field.violations s).length ≤ 1 := by
  cases field with
  | masterServers => exact absurd rfl h
  | minTimeout | maxBufferSize | appName => exact length_reportFirst_le length_reportIf_le
  | tokenGrowth | queryGrowth | maxBurst | masterTimeout | serverTimeout | bindAddress =>
    exact length_reportIf_le
  | level | toConsole | jsonFormat => exact Nat.zero_le 1

/-- **The violations are in the order of the values that they are about.** -/
theorem Settings.violations_pairwise (s : Settings) : s.violations.Pairwise Violation.Before := by
  rw [violations_eq_flatMap, List.pairwise_flatMap]
  constructor
  · intro field _
    by_cases hfield : field = .masterServers
    · refine List.pairwise_of_forall_mem_list fun v hv w hw => .inr ⟨?_, ?_⟩
      · rw [field_eq_of_mem_violations hv, hfield]
      · rw [field_eq_of_mem_violations hw, hfield]
    · have hle := length_violations_le (s := s) hfield
      rw [List.pairwise_iff_getElem]
      intro i j _ hj hij
      omega
  · have hall : SettingsField.all.Pairwise fun field other => field.place < other.place := by
      decide
    refine hall.imp fun hlt v hv w hw => .inl ?_
    rw [field_eq_of_mem_violations hv, field_eq_of_mem_violations hw]
    exact hlt

/-! ## 3. One value and the others -/

/-- Whether a rule on a value is broken depends on no other value. -/
theorem violations_congr (h : field.Same s t) : field.violations s = field.violations t := by
  cases field with
  | level | toConsole | jsonFormat => rfl
  | appName =>
    change s.logging.appName = t.logging.appName at h
    simp only [SettingsField.violations, LoggingSettings.violations, h]
  | _ =>
    simp only [SettingsField.Same] at h
    simp only [SettingsField.violations, h]

/-- The violations of some values are what the rules on these values report. -/
theorem Settings.filter_violations (s : Settings) (keep : SettingsField → Bool) :
    (s.violations.filter fun v => keep v.field) =
      (SettingsField.all.filter keep).flatMap fun field => field.violations s := by
  rw [violations_eq_flatMap]
  induction SettingsField.all with
  | nil => rfl
  | cons field fields ih =>
    rw [List.flatMap_cons, List.filter_append, ih]
    cases hkeep : keep field with
    | true =>
      rw [List.filter_cons_of_pos hkeep, List.flatMap_cons, List.filter_eq_self.mpr]
      intro v hv
      rw [field_eq_of_mem_violations hv]
      exact hkeep
    | false =>
      rw [List.filter_cons_of_neg (Bool.eq_false_iff.mp hkeep), List.filter_eq_nil_iff.mpr]
      · rfl
      · intro v hv
        rw [field_eq_of_mem_violations hv]
        exact Bool.eq_false_iff.mp hkeep

/-- Of the directories, either that there are none is listed, or those that are badly named, in
order. -/
theorem Settings.filter_violations_masterServers (s : Settings) :
    (s.violations.filter fun v => v.field = .masterServers) =
      if s.discovery.masterServers = [] then [.noMasterServer]
      else (s.discovery.masterServers.filter fun address => ¬ NamesHostAndPort address).map
        .masterServer := by
  have honly : (SettingsField.all.filter fun field => field = .masterServers) =
      [.masterServers] := by decide
  rw [filter_violations s fun field => field = .masterServers, honly, List.flatMap_singleton]
  unfold SettingsField.violations reportIf
  simp only [← isHostAndPort_iff]
  cases hservers : s.discovery.masterServers with
  | nil => rfl
  | cons address rest => simp

/-- **To mend one value removes what was listed of it, and nothing else.** -/
theorem Settings.violations_of_mended (hothers : ∀ other, other ≠ field → other.Same s t)
    (hmended : ∀ v : Violation, v.field = field → ¬ v.Holds t) :
    t.violations = s.violations.filter fun v => v.field ≠ field := by
  have hkept : (t.violations.filter fun v => v.field ≠ field) = t.violations := by
    rw [List.filter_eq_self]
    intro v hv
    exact decide_eq_true fun hfield => hmended v hfield (mem_violations_iff.mp hv)
  rw [← hkept, filter_violations t fun other => other ≠ field,
    filter_violations s fun other => other ≠ field]
  refine List.flatMap_congr fun other hother => ?_
  have hne := of_decide_eq_true (List.mem_filter.mp hother).2
  exact (violations_congr (hothers other hne)).symm

/-! ## 4. Limits -/

/-- Settings that keep every limit, if a floor is at most `longest` nanoseconds long and a name is
measured by `size`. -/
structure Settings.KeepsLimits (longest : Nat) (size : String → Nat) (s : Settings) : Prop where
  minTimeout_pos : 0 < s.retry.minTimeout.nanos
  minTimeout_le : s.retry.minTimeout.nanos ≤ longest
  tokenGrowth : s.retry.tokenGrowth.isFinite = true ∧ 1.0 ≤ s.retry.tokenGrowth
  queryGrowth : s.retry.queryGrowth.isFinite = true ∧ 1.0 ≤ s.retry.queryGrowth
  maxBurst_pos : 1 ≤ s.retry.maxBurst.toNat
  masterServers_ne_nil : s.discovery.masterServers ≠ []
  masterServers : ∀ address ∈ s.discovery.masterServers, NamesHostAndPort address
  masterTimeout_pos : 0 < s.discovery.masterTimeout.nanos
  serverTimeout_pos : 0 < s.discovery.serverTimeout.nanos
  le_maxBufferSize : 19 ≤ s.transport.maxBufferSize.toNat
  maxBufferSize_le : s.transport.maxBufferSize.toNat ≤ 65507
  bindAddress : ∃ address, SocketAddress.ofText? s.transport.bindAddress = some address
  appName_pos : 1 ≤ size s.logging.appName
  appName_le : size s.logging.appName ≤ 64

/-- The limits as they are told: a floor of ten seconds, a name of 64 characters. -/
def Settings.KeepsToldLimits (s : Settings) : Prop :=
  s.KeepsLimits (10 * nanosPerSecond) String.length

/-- The limits as they are enforced: a floor of less than eleven seconds, a name of 64 bytes. -/
def Settings.KeepsEnforcedLimits (s : Settings) : Prop :=
  s.KeepsLimits (11 * nanosPerSecond - 1) String.utf8ByteSize

/-- A floor is cut to whole seconds before it is compared. -/
theorem seconds_le_maxMinTimeoutSeconds_iff {d : Duration} :
    d.seconds ≤ maxMinTimeoutSeconds ↔ d.nanos ≤ 11 * nanosPerSecond - 1 := by
  unfold maxMinTimeoutSeconds Duration.seconds nanosPerSecond
  omega

theorem utf8ByteSize_pos_iff {text : String} : 1 ≤ text.utf8ByteSize ↔ text ≠ "" := by
  rw [Nat.one_le_iff_ne_zero, ne_eq, String.utf8ByteSize_eq_zero_iff]

theorem length_pos_iff {text : String} : 1 ≤ text.length ↔ text ≠ "" := by
  rw [Nat.one_le_iff_ne_zero, ne_eq, String.length_eq_zero_iff]

/-- No violation is listed exactly if the settings keep the limits that are enforced. -/
theorem Settings.keepsEnforcedLimits_iff : s.KeepsEnforcedLimits ↔ s.violations = [] := by
  rw [violations_eq_nil_iff]
  constructor
  · intro h
    refine ⟨⟨h.minTimeout_pos, ?_, ?_, ?_, h.maxBurst_pos⟩,
      ⟨h.masterServers_ne_nil, ?_, h.masterTimeout_pos, h.serverTimeout_pos⟩,
      ⟨h.le_maxBufferSize, h.maxBufferSize_le, h.bindAddress⟩, ⟨?_, h.appName_le⟩⟩
    · exact seconds_le_maxMinTimeoutSeconds_iff.mpr h.minTimeout_le
    · exact isGrowth_iff.mpr h.tokenGrowth
    · exact isGrowth_iff.mpr h.queryGrowth
    · exact fun address hmem => isHostAndPort_iff.mpr (h.masterServers address hmem)
    · exact Bool.eq_false_iff.mpr fun hempty =>
        utf8ByteSize_pos_iff.mp h.appName_pos (String.isEmpty_iff.mp hempty)
  · rintro ⟨hretry, hdiscovery, htransport, hlogging⟩
    exact
      { minTimeout_pos := hretry.minTimeout_pos
        minTimeout_le := seconds_le_maxMinTimeoutSeconds_iff.mp hretry.minTimeout_le
        tokenGrowth := isGrowth_iff.mp hretry.tokenGrowth
        queryGrowth := isGrowth_iff.mp hretry.queryGrowth
        maxBurst_pos := hretry.maxBurst_pos
        masterServers_ne_nil := hdiscovery.masterServers_ne_nil
        masterServers := fun address hmem =>
          isHostAndPort_iff.mp (hdiscovery.masterServers address hmem)
        masterTimeout_pos := hdiscovery.masterTimeout_pos
        serverTimeout_pos := hdiscovery.serverTimeout_pos
        le_maxBufferSize := htransport.minBufferSize_le
        maxBufferSize_le := htransport.le_maxDatagramSize
        bindAddress := htransport.bindAddress
        appName_pos := utf8ByteSize_pos_iff.mpr fun hempty => by
          have hfalse := hlogging.appName_isEmpty
          rw [hempty] at hfalse
          cases hfalse
        appName_le := hlogging.appName_le }

/-- No character takes less than a byte. -/
theorem length_le_utf8ByteSize (text : String) : text.length ≤ text.utf8ByteSize := by
  rw [← String.ofList_toList (s := text)]
  induction text.toList with
  | nil => exact Nat.zero_le _
  | cons c cs ih =>
    have hc := c.utf8Size_pos
    rw [String.ofList_cons, String.utf8ByteSize_append, String.utf8ByteSize_singleton,
      String.length_append, String.length_singleton]
    omega

/-- The settings are where the limits that are told and those that are enforced differ: their floor
is more than ten seconds and less than eleven, or their name has 64 characters or fewer that take
more bytes. -/
def Settings.InGap (s : Settings) : Prop :=
  (10 * nanosPerSecond < s.retry.minTimeout.nanos ∧
      s.retry.minTimeout.nanos < 11 * nanosPerSecond) ∨
    (s.logging.appName.length ≤ 64 ∧ 64 < s.logging.appName.utf8ByteSize)

/-- Everywhere else they are the same limits. -/
theorem Settings.keepsToldLimits_iff (h : ¬ s.InGap) :
    s.KeepsToldLimits ↔ s.KeepsEnforcedLimits := by
  have hsecond : nanosPerSecond = 1000000000 := rfl
  have hsize := length_le_utf8ByteSize s.logging.appName
  rw [InGap, not_or] at h
  obtain ⟨hfloor, hname⟩ := h
  constructor
  · intro hkeeps
    have hle := hkeeps.minTimeout_le
    have hlength := hkeeps.appName_le
    exact
      { hkeeps with
        minTimeout_le := by omega
        appName_pos := utf8ByteSize_pos_iff.mpr (length_pos_iff.mp hkeeps.appName_pos)
        appName_le := by omega }
  · intro hkeeps
    have hle := hkeeps.minTimeout_le
    have hbytes := hkeeps.appName_le
    exact
      { hkeeps with
        minTimeout_le := by omega
        appName_pos := length_pos_iff.mpr (utf8ByteSize_pos_iff.mp hkeeps.appName_pos)
        appName_le := by omega }

/-- **What is listed.**  The list is empty exactly for settings that keep the enforced limits, which
but for a gap are the limits that are told.  A violation is in it exactly if it is true of the
settings.  They are in the order of the values, at most one for each; only of the directories there
are as many as are badly named.  To mend one value removes what was listed of it. -/
theorem Settings.violations_exact (s : Settings) :
    (s.violations = [] ↔ s.KeepsEnforcedLimits) ∧
      (¬ s.InGap → (s.violations = [] ↔ s.KeepsToldLimits)) ∧
      (∀ v, v ∈ s.violations ↔ v.Holds s) ∧
      s.violations.Pairwise Violation.Before ∧
      ((s.violations.filter fun v => v.field = .masterServers) =
        if s.discovery.masterServers = [] then [.noMasterServer]
        else (s.discovery.masterServers.filter fun address => ¬ NamesHostAndPort address).map
          .masterServer) ∧
      ∀ (field : SettingsField) (t : Settings),
        (∀ other, other ≠ field → other.Same s t) →
        (∀ v : Violation, v.field = field → ¬ v.Holds t) →
          t.violations = s.violations.filter fun v => v.field ≠ field := by
  refine ⟨keepsEnforcedLimits_iff.symm, fun hgap => ?_, fun v => mem_violations_iff,
    s.violations_pairwise, s.filter_violations_masterServers, ?_⟩
  · rw [keepsToldLimits_iff hgap]
    exact keepsEnforcedLimits_iff.symm
  · intro field t hothers hmended
    exact violations_of_mended hothers hmended

/-- Settings with a floor of zero, three directories that are badly named and one that is not, and
no name. -/
def troubledSettings : Settings where
  retry := { minTimeout := .zero }
  discovery := { masterServers := ["nowhere", "a::1:8283", ":8283", "b:65536"] }
  logging := { appName := "" }

/-- The same settings with directories that are well named. -/
def halfMendedSettings : Settings :=
  { troubledSettings with discovery := { masterServers := ["a::1:8283"] } }

theorem Settings.violations_exact_halfMended :
    (troubledSettings.violations.filter fun v => v.field = .masterServers) =
        [.masterServer "nowhere", .masterServer ":8283", .masterServer "b:65536"] ∧
      ¬ troubledSettings.KeepsToldLimits ∧
      halfMendedSettings.violations =
        troubledSettings.violations.filter (fun v => v.field ≠ .masterServers) ∧
      halfMendedSettings.violations.map Violation.message =
        ["Minimum timeout must be greater than 0", "Application name cannot be empty"] := by
  obtain ⟨-, htold, -, -, hservers, hmended⟩ := Settings.violations_exact troubledSettings
  have hgap : ¬ troubledSettings.InGap := by
    rintro (⟨hfloor, -⟩ | ⟨-, hname⟩)
    · cases hfloor
    · cases hname
  refine ⟨?_, ?_, hmended .masterServers halfMendedSettings ?_ ?_, by decide +kernel⟩
  · rw [hservers]
    have hbad : (troubledSettings.discovery.masterServers.filter fun address =>
        ¬ NamesHostAndPort address) = ["nowhere", ":8283", "b:65536"] := by decide +kernel
    rw [hbad]
    rfl
  · intro hkeeps
    have hnone := (htold hgap).mpr hkeeps
    have hsome : troubledSettings.violations.isEmpty = false := by decide +kernel
    rw [hnone] at hsome
    cases hsome
  · intro other hother
    cases other with
    | masterServers => exact absurd rfl hother
    | _ => rfl
  · intro v hfield hv
    cases v with
    | noMasterServer => cases hv
    | masterServer address =>
      obtain ⟨hmem, hbad⟩ := hv
      obtain rfl : address = "a::1:8283" := List.mem_singleton.mp hmem
      exact hbad (by decide +kernel)
    | _ => cases hfield

/-! ### The gap -/

/-- The default settings with a floor of ten and a half seconds. -/
def lateSettings : Settings := { retry := { minTimeout := ⟨10500000000, by decide⟩ } }

/-- The default settings with a name of 33 characters that take two bytes each. -/
def accentedSettings : Settings := { logging := { appName := "ééééééééééééééééééééééééééééééééé" } }

/-- The limits are not enforced as they are told: a floor of more than ten seconds is not listed,
and a name of fewer than 64 characters is. -/
theorem Settings.limits_not_as_told :
    (lateSettings.violations = [] ∧ ¬ lateSettings.KeepsToldLimits) ∧
      accentedSettings.KeepsToldLimits ∧ accentedSettings.violations = [.appNameTooLong 66] := by
  have hdefault : ({} : Settings).violations = [] := List.isEmpty_iff.mp (by decide +kernel)
  have hgap : ¬ ({} : Settings).InGap := by
    rintro (⟨hfloor, -⟩ | ⟨-, hname⟩)
    · exact absurd hfloor (by decide)
    · exact absurd hname (by decide)
  have htold := (keepsToldLimits_iff hgap).mpr (keepsEnforcedLimits_iff.mpr hdefault)
  refine ⟨⟨List.isEmpty_iff.mp (by decide +kernel), fun hkeeps => ?_⟩, ?_, ?_⟩
  · exact absurd hkeeps.minTimeout_le (by decide)
  · exact { htold with appName_pos := by decide, appName_le := by decide }
  · have hparts := hdefault
    simp only [violations, List.append_eq_nil_iff] at hparts
    obtain ⟨⟨⟨hretry, hdiscovery⟩, htransport⟩, -⟩ := hparts
    have hlogging : accentedSettings.logging.violations = [.appNameTooLong 66] := rfl
    calc
      accentedSettings.violations =
          ({} : Settings).retry.violations ++ ({} : Settings).discovery.violations
            ++ ({} : Settings).transport.violations ++ accentedSettings.logging.violations := rfl
      _ = [.appNameTooLong 66] := by rw [hretry, hdiscovery, htransport, hlogging]; rfl

end ServerDiscovery
