import ServerDiscovery.Proofs.Settings.Admission
import ServerDiscovery.Proofs.Settings.Saving

/-! # Whether saved settings stay valid

A file keeps no time below a millisecond, and the rules forbid a time of zero.  So settings can be
valid, be saved without an error, and be refused once they are loaded: `saving_breaks_validity`
gives some, with a floor of half a millisecond.

Nothing else can go wrong (`validate_reloaded_iff`).  A loaded duration is never longer than the
saved one, so a floor that was short enough still is, and all that is no duration is kept as it is.
-/

namespace ServerDiscovery

/-! ## 1. Durations -/

namespace Duration

theorem nanos_inMillis (d : Duration) :
    d.inMillis.nanos = d.millis % UInt64.size * nanosPerMilli := by
  rw [inMillis, nanos_ofMillis, UInt64.toNat_ofNat']

/-- A file keeps something of a duration, unless it states it as no milliseconds. -/
theorem nanos_inMillis_pos_iff (d : Duration) :
    0 < d.inMillis.nanos ↔ d.millis % UInt64.size ≠ 0 := by
  have hmilli : 0 < nanosPerMilli := by decide
  rw [nanos_inMillis, Nat.mul_pos_iff_of_pos_right hmilli, Nat.pos_iff_ne_zero]

/-- A file never makes a duration longer. -/
theorem nanos_inMillis_le (d : Duration) : d.inMillis.nanos ≤ d.nanos := by
  rw [nanos_inMillis]
  calc
    d.millis % UInt64.size * nanosPerMilli ≤ d.millis * nanosPerMilli :=
      Nat.mul_le_mul_right _ (Nat.mod_le ..)
    _ ≤ d.nanos := Nat.div_mul_le_self ..

end Duration

/-! ## 2. Settings

The durations are variables here: the kernel takes long to compare what a file keeps of one. -/

section Shortened

variable {short other : Duration}

theorem RetrySettings.Sensible.with_shorter {r : RetrySettings} (h : r.Sensible)
    (hle : short.nanos ≤ r.minTimeout.nanos) :
    { r with minTimeout := short }.Sensible ↔ 0 < short.nanos := by
  constructor
  · intro hkept
    exact hkept.minTimeout_pos
  · intro hpos
    have hseconds : short.seconds ≤ r.minTimeout.seconds := Nat.div_le_div_right hle
    exact ⟨hpos, Nat.le_trans hseconds h.minTimeout_le, h.tokenGrowth, h.queryGrowth,
      h.maxBurst_pos⟩

theorem DiscoverySettings.Sensible.with_others {d : DiscoverySettings} (h : d.Sensible) :
    { d with masterTimeout := short, serverTimeout := other }.Sensible ↔
      0 < short.nanos ∧ 0 < other.nanos := by
  constructor
  · intro hkept
    exact ⟨hkept.masterTimeout_pos, hkept.serverTimeout_pos⟩
  · rintro ⟨hmaster, hserver⟩
    exact ⟨h.masterServers_ne_nil, h.masterServers, hmaster, hserver⟩

theorem Settings.Sensible.with_others {s : Settings} (h : s.Sensible) {r : RetrySettings}
    {d : DiscoverySettings} :
    { s with retry := r, discovery := d }.Sensible ↔ r.Sensible ∧ d.Sensible := by
  constructor
  · intro hkept
    exact ⟨hkept.retry, hkept.discovery⟩
  · rintro ⟨hretry, hdiscovery⟩
    exact ⟨hretry, hdiscovery, h.transport, h.logging⟩

end Shortened

namespace Settings

variable {format : DocumentFormat} {s : Settings} {text : String}

/-- What a file keeps of sensible settings is sensible unless it states a duration as nothing. -/
theorem sensible_inMillis_iff (h : s.Sensible) :
    s.inMillis.Sensible ↔ ∀ d ∈ s.durations, d.millis % UInt64.size ≠ 0 := by
  rw [inMillis, h.with_others, RetrySettings.inMillis,
    h.retry.with_shorter s.retry.minTimeout.nanos_inMillis_le, DiscoverySettings.inMillis,
    h.discovery.with_others]
  simp only [Duration.nanos_inMillis_pos_iff, durations, List.forall_mem_cons, List.not_mem_nil,
    false_imp_iff, implies_true, and_true]

/-- Settings that were saved are loaded as what the file keeps of them. -/
theorem load_of_save (hformat : ∀ tables, s.toTables = .ok tables → format.Returns tables)
    (hsave : s.save format = .ok text) :
    load format (some (Utf8.encode text)) = .ok s.inMillis := by
  obtain ⟨hwritable, rfl⟩ := save_eq_ok_iff.mp hsave
  rw [load_encode, parse_write (hformat _ (toTables_eq_ok_iff.mpr ⟨hwritable, rfl⟩))]

/-- **Valid settings that were saved are loaded, and they are valid unless the file states a
duration as no milliseconds.**  A client is then made of them as well. -/
theorem validate_reloaded_iff (format : DocumentFormat) (s : Settings) (text : String)
    (hformat : ∀ tables, s.toTables = .ok tables → format.Returns tables)
    (hvalid : s.validate = .ok ()) (hsave : s.save format = .ok text) :
    ∃ loaded, load format (some (Utf8.encode text)) = .ok loaded ∧
      (loaded.validate = .ok () ↔ ∀ d ∈ s.durations, d.millis % UInt64.size ≠ 0) ∧
      ((∃ c, Client.ofSettings loaded = .ok c) ↔
        ∀ d ∈ s.durations, d.millis % UInt64.size ≠ 0) := by
  have hkept := sensible_inMillis_iff (validate_eq_ok_iff.mp hvalid)
  refine ⟨s.inMillis, load_of_save hformat hsave, ?_, ?_⟩
  · rw [validate_eq_ok_iff, hkept]
  · rw [Client.exists_ofSettings_iff, hkept]

/-! ## 3. Two floors -/

/-- Settings with a given floor. -/
def withFloor (floor : Duration) : Settings where
  retry := { minTimeout := floor }
  discovery := { masterServers := ["a:1"] }

/-- The lines of a file with these settings, where `digits` are those of the floor. -/
def withFloorLines (digits : String) : List String :=
  ["[retry]\n", "min_timeout = ", digits, "\n", "token_burst_growth = 1.2\n",
    "request_burst_growth = 2.0\n", "max_burst = 1024\n", "\n",
    "[discovery]\n", "master_servers = [\"a:1\"]\n", "master_timeout = 5000\n",
    "server_timeout = 16000\n", "\n",
    "[transport]\n", "max_buffer_size = 1400\n", "bind_address = \"0.0.0.0:0\"\n", "\n",
    "[logging]\n", "app_name = \"server-browser\"\n", "log_level = \"info\"\n",
    "log_to_console = true\n", "json_format = false\n"]

theorem returns_of_lines {lines : List String}
    (hrender : Toml.render s.sections = String.join lines)
    (hread : Toml.parse? (String.join lines) = some (document s.sections)) :
    ∀ tables, s.toTables = .ok tables → Toml.format.Returns tables := by
  intro tables htables
  obtain ⟨-, rfl⟩ := toTables_eq_ok_iff.mp htables
  change Toml.parse? (Toml.render s.sections) = _
  rw [hrender, hread]

theorem validate_of_isEmpty (h : s.violations.isEmpty = true) : s.validate = .ok () :=
  if_pos h

/-- A floor of a millisecond and a half: the file states one. -/
def oneMilliAndHalf : Duration := .ofNanos 1500000

theorem returns_oneMilliAndHalf : ∀ tables, (withFloor oneMilliAndHalf).toTables = .ok tables →
    Toml.format.Returns tables := by
  have hrender : Toml.render (withFloor oneMilliAndHalf).sections =
      String.join (withFloorLines "1") := by decide +kernel
  refine returns_of_lines hrender ?_
  rw [Toml.parse?, String.toList_join]
  decide +kernel

theorem validate_reloaded_iff_oneMilliAndHalf :
    ∃ text loaded, (withFloor oneMilliAndHalf).save Toml.format = .ok text ∧
      load Toml.format (some (Utf8.encode text)) = .ok loaded ∧ loaded.validate = .ok () ∧
      ∃ c, Client.ofSettings loaded = .ok c := by
  have hvalid : (withFloor oneMilliAndHalf).validate = .ok () :=
    validate_of_isEmpty (by decide +kernel)
  have hsave : (withFloor oneMilliAndHalf).save Toml.format =
      .ok (Toml.format.write (withFloor oneMilliAndHalf).sections) :=
    save_eq_ok_iff.mpr ⟨⟨by decide, by decide, by decide⟩, rfl⟩
  have hkept : ∀ d ∈ (withFloor oneMilliAndHalf).durations, d.millis % UInt64.size ≠ 0 := by
    decide
  obtain ⟨loaded, hload, hvalidated, hmade⟩ := validate_reloaded_iff Toml.format
    (withFloor oneMilliAndHalf) _ returns_oneMilliAndHalf hvalid hsave
  exact ⟨_, loaded, hsave, hload, hvalidated.mpr hkept, hmade.mpr hkept⟩

/-- A floor of half a millisecond: the file states none. -/
def halfMilli : Duration := .ofNanos 500000

theorem returns_halfMilli : ∀ tables, (withFloor halfMilli).toTables = .ok tables →
    Toml.format.Returns tables := by
  have hrender : Toml.render (withFloor halfMilli).sections = String.join (withFloorLines "0") := by
    decide +kernel
  refine returns_of_lines hrender ?_
  rw [Toml.parse?, String.toList_join]
  decide +kernel

/-- **Saving breaks validity**: with a floor of half a millisecond settings are valid and can be
saved, and what is loaded is refused. -/
theorem saving_breaks_validity :
    (∀ tables, (withFloor halfMilli).toTables = .ok tables → Toml.format.Returns tables) ∧
    (withFloor halfMilli).validate = .ok () ∧
    ∃ text loaded, (withFloor halfMilli).save Toml.format = .ok text ∧
      load Toml.format (some (Utf8.encode text)) = .ok loaded ∧
      loaded.validate ≠ .ok () ∧ ¬ ∃ c, Client.ofSettings loaded = .ok c := by
  have hvalid : (withFloor halfMilli).validate = .ok () := validate_of_isEmpty (by decide +kernel)
  have hsave : (withFloor halfMilli).save Toml.format =
      .ok (Toml.format.write (withFloor halfMilli).sections) :=
    save_eq_ok_iff.mpr ⟨⟨by decide, by decide, by decide⟩, rfl⟩
  have hbroken : ¬ (withFloor halfMilli).inMillis.Sensible := by
    rw [sensible_inMillis_iff (validate_eq_ok_iff.mp hvalid)]
    decide
  refine ⟨returns_halfMilli, hvalid, _, _, hsave, load_of_save returns_halfMilli hsave, ?_, ?_⟩
  · rwa [ne_eq, validate_eq_ok_iff]
  · rwa [Client.exists_ofSettings_iff]

end Settings

end ServerDiscovery
