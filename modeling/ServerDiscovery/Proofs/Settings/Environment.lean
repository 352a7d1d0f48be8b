import ServerDiscovery.Proofs.Decimal.Numeral
import ServerDiscovery.Proofs.Settings.Fields
import ServerDiscovery.Proofs.Settings.MasterList
import ServerDiscovery.Proofs.Text.Utf8

/-! # What an environment overrides

Each of the five variables has a value of its own in the settings (`Variable.field`).  The value
follows the variable and nothing else: environments that agree on the variable agree on the value,
whatever else is in them, and a value that no variable has is always the default.

A variable is used only if its bytes are a text and the variable accepts it; a time accepts numerals
and nothing else.  What is not used leaves the default, and no environment is an error.
-/

namespace ServerDiscovery

namespace Environment

/-! ## 1. Variables -/

/-- A variable that overrides a value of the settings. -/
inductive Variable where
  | masterServers
  | masterTimeout
  | serverTimeout
  | minTimeout
  | bindAddress
deriving DecidableEq, Repr

/-- The text is the number of milliseconds that the time takes. -/
def NamesTime (text : String) (d : Duration) : Prop :=
  ∃ n, Numeral.Names (UInt64.size - 1) text n ∧ d.nanos = n * nanosPerMilli

namespace Variable

/-- The name of a variable. -/
def name : Variable → String
  | .masterServers => masterServersName
  | .masterTimeout => masterTimeoutName
  | .serverTimeout => serverTimeoutName
  | .minTimeout => minTimeoutName
  | .bindAddress => bindAddressName

/-- The value that a variable overrides. -/
def field : Variable → SettingsField
  | .masterServers => .masterServers
  | .masterTimeout => .masterTimeout
  | .serverTimeout => .serverTimeout
  | .minTimeout => .minTimeout
  | .bindAddress => .bindAddress

/-- The text can be used for the variable: any list and any address, but only a number of
milliseconds for a time. -/
def Accepts (v : Variable) (text : String) : Prop :=
  match v with
  | .masterServers => True
  | .masterTimeout | .serverTimeout | .minTimeout => ∃ n, Numeral.Names (UInt64.size - 1) text n
  | .bindAddress => True

/-- The settings have the value that the text gives to the variable. -/
def Gives (v : Variable) (text : String) (s : Settings) : Prop :=
  match v with
  | .masterServers => s.discovery.masterServers = masterList text
  | .masterTimeout => NamesTime text s.discovery.masterTimeout
  | .serverTimeout => NamesTime text s.discovery.serverTimeout
  | .minTimeout => NamesTime text s.retry.minTimeout
  | .bindAddress => s.transport.bindAddress = text

theorem eq_of_name {v w : Variable} (h : v.name = w.name) : v = w := by
  cases v <;> cases w <;> first | rfl | exact absurd h (by decide)

end Variable

variable {env other : Environment} {name text : String} {d : Duration} {v : Variable}
  {field : SettingsField}

/-! ## 2. Reading a variable -/

theorem text?_eq_some_iff : env.text? name = some text ↔ env name = some (Utf8.encode text) := by
  rw [text?, Option.bind_eq_some_iff]
  constructor
  · rintro ⟨bytes, hbytes, hdecode⟩
    rw [hbytes, Utf8.decode?_eq_some_iff.mp hdecode]
  · intro h
    exact ⟨Utf8.encode text, h, Utf8.decode?_encode text⟩

/-- A number of 64 bits is never too long a time. -/
theorem nanos_ofMillis_ofNat {n : Nat} (h : Numeral.Names (UInt64.size - 1) text n) :
    (Duration.ofMillis (UInt64.ofNat n)).nanos = n * nanosPerMilli := by
  obtain ⟨digits, -, hdigits⟩ := h
  have hlt : n < UInt64.size := Nat.lt_of_le_pred (by decide) hdigits.le_limit
  rw [Duration.nanos_ofMillis, UInt64.toNat_ofNat', Nat.mod_eq_of_lt hlt]

/-- A time is what the text of its variable names. -/
theorem duration?_eq_some_iff :
    env.duration? name = some d ↔
      ∃ text, env name = some (Utf8.encode text) ∧ NamesTime text d := by
  unfold duration?
  constructor
  · intro h
    obtain ⟨text, htext, hnumber⟩ := Option.bind_eq_some_iff.mp h
    obtain ⟨n, hn, hd⟩ := Option.bind_eq_some_iff.mp hnumber
    have hnames := Numeral.unsigned?_eq_some_iff.mp hn
    refine ⟨text, text?_eq_some_iff.mp htext, n, hnames, ?_⟩
    rw [← Option.some.inj hd]
    exact nanos_ofMillis_ofNat hnames
  · rintro ⟨text, htext, n, hnames, hnanos⟩
    refine Option.bind_eq_some_iff.mpr ⟨text, text?_eq_some_iff.mpr htext, ?_⟩
    refine Option.bind_eq_some_iff.mpr ⟨n, Numeral.unsigned?_eq_some_iff.mpr hnames, ?_⟩
    refine congrArg some (Duration.eq_of_nanos ?_)
    rw [nanos_ofMillis_ofNat hnames, hnanos]

/-- A variable that is not set, is no text or names no number gives no time. -/
theorem duration?_eq_none (h : ∀ text, env name = some (Utf8.encode text) →
    ¬ ∃ n, Numeral.Names (UInt64.size - 1) text n) : env.duration? name = none := by
  rw [Option.eq_none_iff_forall_ne_some]
  intro d hd
  obtain ⟨text, htext, n, hnames, -⟩ := duration?_eq_some_iff.mp hd
  exact h text htext ⟨n, hnames⟩

/-- A number of milliseconds gives the time, whatever it overrides. -/
theorem namesTime_getD (htext : env name = some (Utf8.encode text))
    (h : ∃ n, Numeral.Names (UInt64.size - 1) text n) (default : Duration) :
    NamesTime text ((env.duration? name).getD default) := by
  obtain ⟨n, hnames⟩ := h
  have htime : NamesTime text (.ofMillis (UInt64.ofNat n)) :=
    ⟨n, hnames, nanos_ofMillis_ofNat hnames⟩
  rw [duration?_eq_some_iff.mpr ⟨text, htext, htime⟩]
  exact htime

theorem text?_congr (h : env name = other name) : env.text? name = other.text? name := by
  rw [text?, text?, h]

theorem duration?_congr (h : env name = other name) :
    env.duration? name = other.duration? name := by
  rw [duration?, duration?, text?_congr h]

theorem text?_eq_none (h : ∀ text, env name ≠ some (Utf8.encode text)) : env.text? name = none := by
  rw [Option.eq_none_iff_forall_ne_some]
  intro text htext
  exact h text (text?_eq_some_iff.mp htext)

/-! ## 3. Settings -/

/-- **A value follows its variable, and no other.** -/
theorem same_of_agree (v : Variable) (h : env v.name = other v.name) :
    v.field.Same (.ofEnvironment env) (.ofEnvironment other) := by
  have htext := text?_congr h
  have htime := duration?_congr h
  cases v with
  | masterServers | bindAddress =>
    simp only [Variable.name] at htext
    simp only [Variable.field, SettingsField.Same, Settings.ofEnvironment, htext]
  | masterTimeout | serverTimeout | minTimeout =>
    simp only [Variable.name] at htime
    simp only [Variable.field, SettingsField.Same, Settings.ofEnvironment, htime]

/-- Values that no variable overrides are the default ones. -/
theorem same_default (h : ∀ v : Variable, v.field ≠ field) :
    field.Same (.ofEnvironment env) {} := by
  cases field with
  | masterServers => exact absurd rfl (h .masterServers)
  | masterTimeout => exact absurd rfl (h .masterTimeout)
  | serverTimeout => exact absurd rfl (h .serverTimeout)
  | minTimeout => exact absurd rfl (h .minTimeout)
  | bindAddress => exact absurd rfl (h .bindAddress)
  | tokenGrowth | queryGrowth | maxBurst | maxBufferSize | appName | level | toConsole
      | jsonFormat => rfl

/-- **A variable that is not used leaves the default.** -/
theorem same_default_of_unused (v : Variable)
    (h : ∀ text, env v.name = some (Utf8.encode text) → ¬ v.Accepts text) :
    v.field.Same (.ofEnvironment env) {} := by
  cases v with
  | masterServers | bindAddress =>
    have hnone := text?_eq_none fun text htext => h text htext trivial
    simp only [Variable.name] at hnone
    simp only [Variable.field, SettingsField.Same, Settings.ofEnvironment, hnone]
    rfl
  | masterTimeout | serverTimeout | minTimeout =>
    have hnone := duration?_eq_none h
    simp only [Variable.name] at hnone
    simp only [Variable.field, SettingsField.Same, Settings.ofEnvironment, hnone, Option.getD_none]

/-- **A variable that is used gives its value.** -/
theorem gives_of_accepts (v : Variable) (htext : env v.name = some (Utf8.encode text))
    (h : v.Accepts text) : v.Gives text (.ofEnvironment env) := by
  cases v with
  | masterServers | bindAddress =>
    have hsome := text?_eq_some_iff.mpr htext
    simp only [Variable.name] at hsome
    simp only [Variable.Gives, Settings.ofEnvironment, hsome, Option.map_some, Option.getD_some]
  | masterTimeout | serverTimeout | minTimeout => exact namesTime_getD htext h _

/-- A value is the same if its variable, should it have one, is the same. -/
theorem same_of_forall (h : ∀ v : Variable, v.field = field → env v.name = other v.name) :
    field.Same (.ofEnvironment env) (.ofEnvironment other) := by
  by_cases hvariable : ∃ v : Variable, v.field = field
  · obtain ⟨v, rfl⟩ := hvariable
    exact same_of_agree v (h v rfl)
  · have hnone : ∀ v : Variable, v.field ≠ field := fun v hv => hvariable ⟨v, hv⟩
    exact (same_default hnone).trans (same_default hnone).symm

/-- **A variable that changes has no influence on other values.** -/
theorem same_of_change (v : Variable) (hchange : ∀ name, name ≠ v.name → env name = other name)
    (hfield : field ≠ v.field) : field.Same (.ofEnvironment env) (.ofEnvironment other) := by
  refine same_of_forall fun w hw => hchange w.name fun hname => hfield ?_
  rw [← hw, Variable.eq_of_name hname]

/-- **The variables are all that the settings depend on.** -/
theorem ofEnvironment_congr (h : ∀ v : Variable, env v.name = other v.name) :
    Settings.ofEnvironment env = .ofEnvironment other :=
  Settings.eq_iff_same.mpr fun _ => same_of_forall fun v _ => h v

/-- **What an environment overrides.**  Every environment gives settings.  Each value follows its
own variable, and one that no variable has is the default; so environments that agree on the
variables give the same settings.  The default is also the value whose variable is not set, is no
text, or names no number where a time is called for; any other variable gives its value.  The
entries of a list of directories are clean, a comma joins two lists into one, and to read a list
again after joining its entries changes nothing. -/
theorem overrides (env : Environment) :
    (∀ (v : Variable) (other : Environment), env v.name = other v.name →
        v.field.Same (.ofEnvironment env) (.ofEnvironment other)) ∧
      (∀ (v : Variable) (other : Environment), (∀ name, name ≠ v.name → env name = other name) →
        ∀ field, field ≠ v.field → field.Same (.ofEnvironment env) (.ofEnvironment other)) ∧
      (∀ field, (∀ v : Variable, v.field ≠ field) → field.Same (.ofEnvironment env) {}) ∧
      (∀ other : Environment, (∀ v : Variable, env v.name = other v.name) →
        Settings.ofEnvironment env = .ofEnvironment other) ∧
      (∀ v : Variable, (∀ text, env v.name = some (Utf8.encode text) → ¬ v.Accepts text) →
        v.field.Same (.ofEnvironment env) {}) ∧
      (∀ (v : Variable) (text : String), env v.name = some (Utf8.encode text) → v.Accepts text →
        v.Gives text (.ofEnvironment env)) ∧
      (∀ text, ∀ entry ∈ masterList text, Clean entry) ∧
      (∀ a b, masterList (a ++ "," ++ b) = masterList a ++ masterList b) ∧
      ∀ text, masterList (",".intercalate (masterList text)) = masterList text := by
  refine ⟨fun v other h => same_of_agree v h, fun v other h field => same_of_change v h,
    fun field h => same_default h, fun other h => ofEnvironment_congr h,
    fun v h => same_default_of_unused v h, fun v text htext h => gives_of_accepts v htext h,
    fun text entry h => clean_of_mem_masterList h, masterList_append,
    fun text => masterList_intercalate fun entry h => ?_⟩
  exact clean_of_mem_masterList h

/-- A list with blanks and an empty piece, a time that is one, a time that is negative, and an
address that is no text. -/
def mixedEnvironment : Environment := fun name =>
  if name = masterServersName then some (Utf8.encode " a:1,, b:2\u3000")
  else if name = minTimeoutName then some (Utf8.encode "+50")
  else if name = serverTimeoutName then some (Utf8.encode "-1")
  else if name = bindAddressName then some [0xFF]
  else none

/-- The same environment without the list. -/
def unlistedEnvironment : Environment := fun name =>
  if name = masterServersName then none else mixedEnvironment name

theorem overrides_mixed :
    (Settings.ofEnvironment mixedEnvironment).discovery.masterServers = ["a:1", "b:2"] ∧
      NamesTime "+50" (Settings.ofEnvironment mixedEnvironment).retry.minTimeout ∧
      (Settings.ofEnvironment mixedEnvironment).discovery.serverTimeout = defaultServerTimeout ∧
      (Settings.ofEnvironment mixedEnvironment).discovery.masterTimeout = defaultMasterTimeout ∧
      (Settings.ofEnvironment mixedEnvironment).transport.bindAddress = "0.0.0.0:0" ∧
      (Settings.ofEnvironment mixedEnvironment).retry.tokenGrowth = 1.2 ∧
      (Settings.ofEnvironment mixedEnvironment).retry.minTimeout =
        (Settings.ofEnvironment unlistedEnvironment).retry.minTimeout ∧
      (Settings.ofEnvironment mixedEnvironment).transport.bindAddress =
        (Settings.ofEnvironment unlistedEnvironment).transport.bindAddress := by
  obtain ⟨hagree, hchange, hdefault, -, hunused, hgives, -⟩ := overrides mixedEnvironment
  refine ⟨?_, ?_, ?_, ?_, ?_, ?_, hagree .minTimeout unlistedEnvironment rfl, ?_⟩
  · have hlist : masterList " a:1,, b:2\u3000" = ["a:1", "b:2"] := by decide +kernel
    rw [← hlist]
    exact hgives .masterServers _ rfl trivial
  · exact hgives .minTimeout _ rfl ⟨50, Numeral.unsigned?_eq_some_iff.mp (by decide +kernel)⟩
  · refine hunused .serverTimeout fun text htext => ?_
    rintro ⟨n, hnames⟩
    have hbytes : Utf8.encode "-1" = Utf8.encode text := Option.some.inj htext
    have htext : "-1" = text := by
      rw [← Option.some_inj, ← Utf8.decode?_encode, hbytes, Utf8.decode?_encode]
    subst htext
    have hsome := Numeral.unsigned?_eq_some_iff.mpr hnames
    have hnone : Numeral.unsigned? (UInt64.size - 1) "-1" = none := by decide +kernel
    rw [hnone] at hsome
    cases hsome
  · refine hunused .masterTimeout fun text htext => ?_
    cases htext
  · refine hunused .bindAddress fun text htext => ?_
    have hsome := Utf8.decode?_eq_some_iff.mpr (Option.some.inj htext)
    have hnone : Utf8.decode? [0xFF] = none := by decide +kernel
    rw [hnone] at hsome
    cases hsome
  · exact hdefault .tokenGrowth fun v => by cases v <;> decide
  · have hothers : ∀ name, name ≠ Variable.masterServers.name →
        mixedEnvironment name = unlistedEnvironment name := fun name hname => (if_neg hname).symm
    exact hchange .masterServers unlistedEnvironment hothers .bindAddress (by decide)

end Environment

end ServerDiscovery
