import ServerDiscovery.Proofs.Text.Utf8
import ServerDiscovery.Settings.File

/-! # Saved settings

A file keeps of a duration its whole milliseconds, as a 64-bit number that wraps
(`Duration.inMillis`), and all else of the settings as it is.  The writer takes no number beyond
`Toml.maxInteger`, so some settings cannot be saved (`Settings.Writable`).

The proof has three stages: which tables are written (`toTables_eq_ok_iff`), what a reader finds in
such tables (`ofTable_document`), and the text between the two.  Of the text only this is used: read
as a document, it holds the tables that were written (`DocumentFormat.Returns`).
-/

namespace ServerDiscovery

open Toml (Value Table)

/-! ## 1. Durations in milliseconds -/

namespace Duration

/-- What a file keeps of a duration: its whole milliseconds, as a 64-bit number. -/
def inMillis (d : Duration) : Duration := .ofMillis (UInt64.ofNat d.millis)

theorem millis_inMillis (d : Duration) : d.inMillis.millis = d.millis % UInt64.size := by
  rw [inMillis, millis_ofMillis, UInt64.toNat_ofNat']

/-- A file keeps a duration exactly if it is a whole number of milliseconds of 64 bits. -/
theorem inMillis_eq_self_iff (d : Duration) :
    d.inMillis = d ↔ nanosPerMilli ∣ d.nanos ∧ d.millis < UInt64.size := by
  constructor
  · intro h
    rw [← h, inMillis, nanos_ofMillis, millis_ofMillis]
    exact ⟨Nat.dvd_mul_left .., UInt64.toNat_lt _⟩
  · rintro ⟨hwhole, hlt⟩
    apply eq_of_nanos
    rw [inMillis, nanos_ofMillis, UInt64.toNat_ofNat', Nat.mod_eq_of_lt hlt]
    exact Nat.div_mul_cancel hwhole

end Duration

/-! ## 2. What is written -/

/-- The retry settings that a file keeps. -/
def RetrySettings.inMillis (r : RetrySettings) : RetrySettings :=
  { r with minTimeout := r.minTimeout.inMillis }

/-- The discovery settings that a file keeps. -/
def DiscoverySettings.inMillis (d : DiscoverySettings) : DiscoverySettings :=
  { d with masterTimeout := d.masterTimeout.inMillis, serverTimeout := d.serverTimeout.inMillis }

/-- The number that stands for a duration. -/
def writtenDuration (d : Duration) : Value := .integer (d.millis % UInt64.size : Nat)

theorem writtenDuration_inMillis (d : Duration) :
    writtenDuration d.inMillis = writtenDuration d := by
  rw [writtenDuration, writtenDuration, Duration.millis_inMillis, Nat.mod_mod]

/-- The table of retry settings. -/
def RetrySettings.table (r : RetrySettings) : Table :=
  [("min_timeout", writtenDuration r.minTimeout),
   ("token_burst_growth", .float r.tokenGrowth),
   ("request_burst_growth", .float r.queryGrowth),
   ("max_burst", .integer r.maxBurst.toNat)]

/-- The table of discovery settings. -/
def DiscoverySettings.table (d : DiscoverySettings) : Table :=
  [("master_servers", .array (d.masterServers.map .string)),
   ("master_timeout", writtenDuration d.masterTimeout),
   ("server_timeout", writtenDuration d.serverTimeout)]

/-- The table of transport settings. -/
def TransportSettings.table (t : TransportSettings) : Table :=
  [("max_buffer_size", .integer t.maxBufferSize.toNat), ("bind_address", .string t.bindAddress)]

/-- The table of logging settings. -/
def LoggingSettings.table (l : LoggingSettings) : Table :=
  [("app_name", .string l.appName), ("log_level", .string l.level.name),
   ("log_to_console", .boolean l.toConsole), ("json_format", .boolean l.jsonFormat)]

-- Not by `rfl`: the kernel would first compare the durations, which takes it long.
theorem RetrySettings.maxBurst_inMillis (r : RetrySettings) : r.inMillis.maxBurst = r.maxBurst := by
  rw [inMillis]

theorem RetrySettings.table_inMillis (r : RetrySettings) : r.inMillis.table = r.table := by
  rw [table, table, inMillis, writtenDuration_inMillis]

theorem DiscoverySettings.table_inMillis (d : DiscoverySettings) :
    d.inMillis.table = d.table := by
  rw [table, table, inMillis, writtenDuration_inMillis, writtenDuration_inMillis]

namespace Settings

/-- The durations in settings. -/
def durations (s : Settings) : List Duration :=
  [s.retry.minTimeout, s.discovery.masterTimeout, s.discovery.serverTimeout]

/-- The settings that a file keeps. -/
def inMillis (s : Settings) : Settings :=
  { s with retry := s.retry.inMillis, discovery := s.discovery.inMillis }

theorem retry_inMillis (s : Settings) : s.inMillis.retry = s.retry.inMillis := by
  rw [inMillis]

theorem transport_inMillis (s : Settings) : s.inMillis.transport = s.transport := by
  rw [inMillis]

theorem durations_inMillis (s : Settings) :
    s.inMillis.durations = s.durations.map Duration.inMillis := rfl

/-- A document can hold all numbers in the settings. -/
structure Writable (s : Settings) : Prop where
  maxBurst : s.retry.maxBurst.toNat ≤ Toml.maxInteger
  maxBufferSize : s.transport.maxBufferSize.toNat ≤ Toml.maxInteger
  durations : ∀ d ∈ s.durations, d.millis % UInt64.size ≤ Toml.maxInteger

/-- The tables of a document with the settings, were there no limit to its numbers. -/
def sections (s : Settings) : List (String × Table) :=
  [("retry", s.retry.table), ("discovery", s.discovery.table),
   ("transport", s.transport.table), ("logging", s.logging.table)]

variable {s : Settings}

theorem sections_inMillis (s : Settings) : s.inMillis.sections = s.sections := by
  rw [sections, sections, inMillis, RetrySettings.table_inMillis, DiscoverySettings.table_inMillis]

theorem writable_inMillis (h : s.Writable) : s.inMillis.Writable where
  maxBurst := by
    rw [retry_inMillis, RetrySettings.maxBurst_inMillis]
    exact h.maxBurst
  maxBufferSize := by
    rw [transport_inMillis]
    exact h.maxBufferSize
  durations := by
    rw [durations_inMillis, List.forall_mem_map]
    intro d hd
    rw [Duration.millis_inMillis, Nat.mod_mod]
    exact h.durations d hd

theorem inMillis_eq_self_iff :
    s.inMillis = s ↔ ∀ d ∈ s.durations, nanosPerMilli ∣ d.nanos ∧ d.millis < UInt64.size := by
  simp only [← Duration.inMillis_eq_self_iff]
  obtain ⟨retry, discovery, transport, logging⟩ := s
  obtain ⟨minTimeout, _, _, _⟩ := retry
  obtain ⟨_, masterTimeout, serverTimeout⟩ := discovery
  simp [durations, inMillis, RetrySettings.inMillis, DiscoverySettings.inMillis]

end Settings

theorem writableInteger_eq_ok_iff {n : Nat} {v : Value} :
    writableInteger n = .ok v ↔ n ≤ Toml.maxInteger ∧ v = .integer n := by
  unfold writableInteger
  split <;> grind

theorem writableDuration_eq_ok_iff {d : Duration} {v : Value} :
    writableDuration d = .ok v ↔
      d.millis % UInt64.size ≤ Toml.maxInteger ∧ v = writtenDuration d :=
  writableInteger_eq_ok_iff

namespace Settings

variable {s : Settings}

theorem toTables_eq_ok_iff {tables : List (String × Table)} :
    s.toTables = .ok tables ↔ s.Writable ∧ tables = s.sections := by
  simp only [toTables, bind_eq_ok_iff, writableInteger_eq_ok_iff, writableDuration_eq_ok_iff]
  constructor
  · rintro ⟨_, ⟨hmin, rfl⟩, _, ⟨hburst, rfl⟩, _, ⟨hmaster, rfl⟩, _, ⟨hserver, rfl⟩, _,
      ⟨hbuffer, rfl⟩, hsections⟩
    cases hsections
    exact ⟨⟨hburst, hbuffer, by simp [Settings.durations, hmin, hmaster, hserver]⟩, rfl⟩
  · rintro ⟨⟨hburst, hbuffer, hdurations⟩, rfl⟩
    simp only [Settings.durations, List.forall_mem_cons] at hdurations
    obtain ⟨hmin, hmaster, hserver, -⟩ := hdurations
    exact ⟨_, ⟨hmin, rfl⟩, _, ⟨hburst, rfl⟩, _, ⟨hmaster, rfl⟩, _, ⟨hserver, rfl⟩, _,
      ⟨hbuffer, rfl⟩, rfl⟩

end Settings

/-! ## 3. What is read -/

namespace FromValue

theorem unsigned_natCast (n : Nat) : unsigned (.integer n) = .ok (UInt64.ofNat n) := by
  rw [unsigned, if_pos (Int.natCast_nonneg n), Int.toNat_natCast]

theorem unsigned_toNat (n : UInt64) : unsigned (.integer n.toNat) = .ok n := by
  rw [unsigned_natCast, UInt64.ofNat_toNat]

theorem duration_writtenDuration (d : Duration) :
    duration (writtenDuration d) = .ok d.inMillis := by
  rw [duration, writtenDuration, unsigned_natCast, UInt64.ofNat_mod_size]
  rfl

theorem strings_map (texts : List String) : strings (.array (texts.map .string)) = .ok texts := by
  rw [strings]
  induction texts with
  | nil => rfl
  | cons text texts ih => rw [List.map_cons, List.mapM_cons, ih]; rfl

theorem level_name (level : LogLevel) : FromValue.level (.string level.name) = .ok level := by
  cases level <;> decide +kernel

end FromValue

theorem RetrySettings.read_table (r : RetrySettings) :
    RetrySettings.reader.read (.table r.table) = .ok r.inMillis := by
  simp only [PartReader.read, PartReader.putAll, RetrySettings.table, RetrySettings.reader,
    List.foldlM_cons, List.foldlM_nil, FromValue.duration_writtenDuration, FromValue.unsigned_toNat]
  rfl

theorem DiscoverySettings.read_table (d : DiscoverySettings) :
    DiscoverySettings.reader.read (.table d.table) = .ok d.inMillis := by
  simp only [PartReader.read, PartReader.putAll, DiscoverySettings.table, DiscoverySettings.reader,
    List.foldlM_cons, List.foldlM_nil, FromValue.duration_writtenDuration, FromValue.strings_map]
  rfl

theorem TransportSettings.read_table (t : TransportSettings) :
    TransportSettings.reader.read (.table t.table) = .ok t := by
  simp only [PartReader.read, PartReader.putAll, TransportSettings.table, TransportSettings.reader,
    List.foldlM_cons, List.foldlM_nil, FromValue.unsigned_toNat]
  rfl

theorem LoggingSettings.read_table (l : LoggingSettings) :
    LoggingSettings.reader.read (.table l.table) = .ok l := by
  simp only [PartReader.read, PartReader.putAll, LoggingSettings.table, LoggingSettings.reader,
    List.foldlM_cons, List.foldlM_nil, FromValue.level_name]
  rfl

/-- The document that consists of sections. -/
def document (sections : List (String × Table)) : Table :=
  sections.map fun (name, entries) => (name, .table entries)

/-- The text that is written for sections is read as the document of these sections. -/
def DocumentFormat.Returns (format : DocumentFormat) (sections : List (String × Table)) : Prop :=
  format.read? (format.write sections) = some (document sections)

namespace Settings

variable {format : DocumentFormat} {s : Settings} {text : String}

theorem ofTable_document (s : Settings) : ofTable (document s.sections) = .ok s.inMillis := by
  simp only [ofTable, document, sections, List.map_cons, List.map_nil, List.foldlM_cons,
    List.foldlM_nil, putPart, RetrySettings.read_table, DiscoverySettings.read_table,
    TransportSettings.read_table, LoggingSettings.read_table]
  rfl

/-! ## 4. Files -/

theorem save_eq_ok_iff :
    s.save format = .ok text ↔ s.Writable ∧ text = format.write s.sections := by
  unfold save
  split
  · next tables h =>
    obtain ⟨hwritable, rfl⟩ := toTables_eq_ok_iff.1 h
    simp [hwritable, eq_comm]
  · next h =>
    have hunwritable : ¬ s.Writable := by
      intro hwritable
      rw [toTables_eq_ok_iff.2 ⟨hwritable, rfl⟩] at h
      cases h
    simp [hunwritable]

theorem load_encode (text : String) :
    load format (some (Utf8.encode text)) = parse format text := by
  simp only [load, Utf8.decode?_encode]

theorem parse_write (h : format.Returns s.sections) :
    parse format (format.write s.sections) = .ok s.inMillis := by
  rw [parse, h]
  simp only [ofTable_document]
  rfl

/-- **Settings that were saved and are loaded are those that a file keeps.**  Settings can be saved
exactly if a document can hold their numbers.  The loaded ones are written as the same text again,
so nothing changes any more; and they are the saved ones exactly if each duration is a whole number
of milliseconds below `2 ^ 64`. -/
theorem save_then_load (format : DocumentFormat) (s : Settings)
    (hformat : ∀ tables, s.toTables = .ok tables → format.Returns tables) :
    ((∃ text, s.save format = .ok text) ↔ s.Writable) ∧
    ∀ text, s.save format = .ok text →
      load format (some (Utf8.encode text)) = .ok s.inMillis ∧
      s.inMillis.save format = .ok text ∧
      (load format (some (Utf8.encode text)) = .ok s ↔
        ∀ d ∈ s.durations, nanosPerMilli ∣ d.nanos ∧ d.millis < UInt64.size) := by
  constructor
  · simp only [save_eq_ok_iff, exists_and_left, exists_eq, and_true]
  · intro text hsave
    obtain ⟨hwritable, rfl⟩ := save_eq_ok_iff.1 hsave
    have hreturns : format.Returns s.sections :=
      hformat _ (toTables_eq_ok_iff.2 ⟨hwritable, rfl⟩)
    have hload : load format (some (Utf8.encode (format.write s.sections))) = .ok s.inMillis := by
      rw [load_encode, parse_write hreturns]
    refine ⟨hload, ?_, ?_⟩
    · exact save_eq_ok_iff.2 ⟨writable_inMillis hwritable, by rw [sections_inMillis]⟩
    · rw [hload, Except.ok.injEq]
      exact inMillis_eq_self_iff

/-- Settings that a file keeps only in part: one duration has half a millisecond, and another is so
long that its milliseconds wrap. -/
def unkept : Settings where
  retry := { minTimeout := .ofNanos 35500000, tokenGrowth := 0 / 0, maxBurst := 8 }
  discovery :=
    { masterServers := ["a:1"]
      masterTimeout := .ofNanos ((UInt64.size + 7) * nanosPerMilli) }
  logging := { appName := "say \"hi\"" }

/-- The lines of a file with these settings. -/
def unkeptLines : List String :=
  ["[retry]\n", "min_timeout = 35\n", "token_burst_growth = nan\n",
    "request_burst_growth = 2.0\n", "max_burst = 8\n", "\n",
    "[discovery]\n", "master_servers = [\"a:1\"]\n", "master_timeout = 7\n",
    "server_timeout = 16000\n", "\n",
    "[transport]\n", "max_buffer_size = 1400\n", "bind_address = \"0.0.0.0:0\"\n", "\n",
    "[logging]\n", "app_name = \x27say \"hi\"\x27\n", "log_level = \"info\"\n",
    "log_to_console = true\n", "json_format = false\n"]

theorem render_unkept : Toml.render unkept.sections = String.join unkeptLines := by
  decide +kernel

theorem returns_unkept : Toml.format.Returns unkept.sections := by
  have hread : Toml.parse? (String.join unkeptLines) = some (document unkept.sections) := by
    -- The characters line by line: those of one long text take the kernel far longer.
    rw [Toml.parse?, String.toList_join]
    decide +kernel
  change Toml.parse? (Toml.render unkept.sections) = _
  rw [render_unkept, hread]

theorem save_then_load_unkept :
    (∀ tables, unkept.toTables = .ok tables → Toml.format.Returns tables) ∧
    ∃ text, unkept.save Toml.format = .ok text ∧
      load Toml.format (some (Utf8.encode text)) = .ok unkept.inMillis ∧
      unkept.inMillis.durations = [.ofMillis 35, .ofMillis 7, .ofMillis 16000] ∧
      unkept.inMillis.save Toml.format = .ok text ∧
      load Toml.format (some (Utf8.encode text)) ≠ .ok unkept := by
  have hformat : ∀ tables, unkept.toTables = .ok tables → Toml.format.Returns tables := by
    intro tables htables
    obtain ⟨-, rfl⟩ := toTables_eq_ok_iff.1 htables
    exact returns_unkept
  obtain ⟨hsaved, hload⟩ := save_then_load Toml.format unkept hformat
  obtain ⟨text, hsave⟩ := hsaved.2 ⟨by decide, by decide, by decide⟩
  obtain ⟨hload, hagain, hsame⟩ := hload text hsave
  refine ⟨hformat, text, hsave, hload, by decide, hagain, fun h => ?_⟩
  exact absurd (hsame.1 h) (by decide)

end Settings

end ServerDiscovery
