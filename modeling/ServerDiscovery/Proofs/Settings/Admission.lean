import ServerDiscovery.Discovery.Client
import ServerDiscovery.Proofs.Datagram.Cut
import ServerDiscovery.Proofs.Exchange.Schedule
import ServerDiscovery.Proofs.Settings.Limits

/-! # What the limits are good for

A client is made of settings that break no rule, and of no others.  The address of its sockets is
read a second time then, which cannot fail, because one of the rules is that it can be read.

Each rule on retries and buffers is something that the engine relies on.  `RetryPolicy.Sound`
collects them, and `Exchange.sound_attempt` says what they are good for, in every run of every
exchange: an attempt waits, and sends between one copy and the largest burst.  Were the floor zero,
the first window would be; were the largest burst zero, one copy would be sent all the same, more
than allowed.
-/

namespace ServerDiscovery

variable {s : Settings} {c : Client} {e : SettingsError}

/-! ## 1. Policies -/

/-- What the engine relies on in a policy. -/
structure RetryPolicy.Sound (policy : RetryPolicy) : Prop where
  minTimeout_pos : 0 < policy.minTimeout.nanos
  tokenGrowth : policy.tokenGrowth.isFinite = true ∧ 1.0 ≤ policy.tokenGrowth
  queryGrowth : policy.queryGrowth.isFinite = true ∧ 1.0 ≤ policy.queryGrowth
  maxBurst_pos : 1 ≤ policy.maxBurst.toNat
  minBufferSize_le : 19 ≤ policy.maxResponseSize.toNat
  le_maxDatagramSize : policy.maxResponseSize.toNat ≤ 65507

/-- A buffer that is large enough is taken as it is. -/
theorem Settings.maxResponseSize_policy (h : minBufferSize ≤ s.transport.maxBufferSize.toNat) :
    s.policy.maxResponseSize = s.transport.maxBufferSize := by
  rw [← UInt64.toNat_inj, s.toNat_maxResponseSize, Nat.max_eq_left h]

/-- The policy of settings that break no rule. -/
theorem Settings.Sensible.sound_policy (h : s.Sensible) : s.policy.Sound where
  minTimeout_pos := h.retry.minTimeout_pos
  tokenGrowth := isGrowth_iff.mp h.retry.tokenGrowth
  queryGrowth := isGrowth_iff.mp h.retry.queryGrowth
  maxBurst_pos := h.retry.maxBurst_pos
  minBufferSize_le := s.minBufferSize_le
  le_maxDatagramSize := by
    rw [maxResponseSize_policy h.transport.minBufferSize_le]
    exact h.transport.le_maxDatagramSize

/-- **With a sound policy every attempt of a run waits**, and sends between one copy and the largest
burst. -/
theorem Exchange.sound_attempt {σ : Type} {x : Exchange} (hsound : x.policy.Sound)
    {t : Transport σ} {limit : Nat} {now : Instant} {state : σ} {a : Attempt}
    (ha : a ∈ x.attempts t limit now state) :
    a.started < a.deadline ∧ 1 ≤ a.sends ∧ a.sends ≤ x.policy.maxBurst.toNat := by
  have hwaits := Exchange.started_lt_deadline_of_mem_attempts hsound.minTimeout_pos ha
  obtain ⟨hone, hle⟩ := Exchange.sends_of_mem_attempts ha
  rw [Nat.max_eq_right hsound.maxBurst_pos] at hle
  exact ⟨hwaits, hone, hle⟩

/-! ## 2. Clients -/

theorem Client.ofSettings_of_sensible (h : s.Sensible) {bind : SocketAddress}
    (hbind : SocketAddress.ofText? s.transport.bindAddress = some bind) :
    Client.ofSettings s = .ok ⟨s, s.policy, bind⟩ := by
  rw [Client.ofSettings, Settings.validate_eq_ok_iff.mpr h, hbind]
  rfl

theorem Client.ofSettings_of_not_sensible (h : ¬ s.Sensible) :
    Client.ofSettings s = .error (.violations s.violations) := by
  rw [Client.ofSettings, Settings.validate_eq_error_iff.mpr ⟨h, rfl⟩]
  rfl

/-- A client is made of sensible settings, and of no others. -/
theorem Client.ofSettings_eq_ok_iff :
    Client.ofSettings s = .ok c ↔
      s.Sensible ∧ ∃ bind, SocketAddress.ofText? s.transport.bindAddress = some bind ∧
        c = ⟨s, s.policy, bind⟩ := by
  constructor
  · intro hc
    by_cases h : s.Sensible
    · obtain ⟨bind, hbind⟩ := h.transport.bindAddress
      rw [Client.ofSettings_of_sensible h hbind] at hc
      cases hc
      exact ⟨h, bind, hbind, rfl⟩
    · rw [Client.ofSettings_of_not_sensible h] at hc
      cases hc
  · rintro ⟨h, bind, hbind, rfl⟩
    exact Client.ofSettings_of_sensible h hbind

/-- There is a client for sensible settings, and for no others. -/
theorem Client.exists_ofSettings_iff : (∃ c, Client.ofSettings s = .ok c) ↔ s.Sensible := by
  constructor
  · rintro ⟨c, hc⟩
    exact (Client.ofSettings_eq_ok_iff.mp hc).1
  · intro h
    obtain ⟨bind, hbind⟩ := h.transport.bindAddress
    exact ⟨_, Client.ofSettings_of_sensible h hbind⟩

/-- Settings are never refused for the address of the sockets, if they break no rule. -/
theorem Client.ofSettings_eq_error_iff :
    Client.ofSettings s = .error e ↔ s.validate = .error e := by
  by_cases h : s.Sensible
  · obtain ⟨bind, hbind⟩ := h.transport.bindAddress
    rw [Client.ofSettings_of_sensible h hbind, Settings.validate_eq_ok_iff.mpr h]
    simp
  · rw [Client.ofSettings_of_not_sensible h, Settings.validate_eq_error_iff.mpr ⟨h, rfl⟩]
    simp

/-- **A client is made of settings that break no rule, and its policy is sound.**  Whatever the
settings, they are refused exactly if they break a rule, and with the error that says which.  With a
client that was made, every attempt of every exchange waits and sends between one copy and the
largest burst, whether or not the run is over, and no datagram that is cut to its buffer is taken
for another. -/
theorem Client.ofSettings_sound (s : Settings) :
    ((∃ c, Client.ofSettings s = .ok c) ↔ s.violations = []) ∧
    (∀ e, Client.ofSettings s = .error e ↔ s.validate = .error e) ∧
    ∀ c, Client.ofSettings s = .ok c →
      c.settings = s ∧ c.policy = s.policy ∧
      SocketAddress.ofText? s.transport.bindAddress = some c.bind ∧
      c.policy.Sound ∧ c.policy.maxResponseSize = s.transport.maxBufferSize ∧
      (∀ (σ : Type) (x : Exchange) (t : Transport σ) limit now state, x.policy = c.policy →
        (∀ run, x.run t limit now state = some run →
          run.attempts = x.attempts t limit now state) ∧
        ∀ a ∈ x.attempts t limit now state,
          a.started < a.deadline ∧ 1 ≤ a.sends ∧ a.sends ≤ c.policy.maxBurst.toNat) ∧
      ∀ datagram : Bytes, JudgedAlike (datagram.take c.policy.maxResponseSize.toNat) datagram := by
  refine ⟨?_, fun e => Client.ofSettings_eq_error_iff, fun c hc => ?_⟩
  · rw [Client.exists_ofSettings_iff, Settings.violations_eq_nil_iff]
  · obtain ⟨h, bind, hbind, rfl⟩ := Client.ofSettings_eq_ok_iff.mp hc
    have hsound := h.sound_policy
    refine ⟨rfl, rfl, hbind, hsound, ?_, ?_, ?_⟩
    · exact Settings.maxResponseSize_policy h.transport.minBufferSize_le
    · intro σ x t limit now state hpolicy
      have hx : x.policy.Sound := hpolicy ▸ hsound
      refine ⟨fun run h => (Exchange.attempts_of_run h).symm, fun a ha => ?_⟩
      rw [← hpolicy]
      exact Exchange.sound_attempt hx ha
    · exact judgedAlike_take_iff.mpr hsound.minBufferSize_le

/-- The least that no rule forbids. -/
def leastSettings : Settings where
  retry := { minTimeout := .ofNanos 1, tokenGrowth := 1.0, queryGrowth := 1.0, maxBurst := 1 }
  discovery :=
    { masterServers := ["m:0"], masterTimeout := .ofNanos 1, serverTimeout := .ofNanos 1 }
  transport := { maxBufferSize := 19 }
  logging := { appName := "b" }

/-- With the least settings every attempt sends one copy. -/
theorem Client.ofSettings_sound_least :
    ∃ c, Client.ofSettings leastSettings = .ok c ∧ c.policy.Sound ∧
      c.policy.maxResponseSize.toNat = minBufferSize ∧
      ∀ (σ : Type) (t : Transport σ) limit now state,
        ∀ a ∈ (tokenExchange ⟨1, 2, 3, 4⟩ .zero c.policy).attempts t limit now state,
          a.started < a.deadline ∧ a.sends = 1 := by
  have hnone : leastSettings.violations = [] := List.isEmpty_iff.mp (by decide +kernel)
  obtain ⟨hmade, -, haccepted⟩ := Client.ofSettings_sound leastSettings
  obtain ⟨c, hc⟩ := hmade.mpr hnone
  obtain ⟨-, hpolicy, -, hsound, hsize, hattempts, -⟩ := haccepted c hc
  refine ⟨c, hc, hsound, by rw [hsize]; rfl, fun σ t limit now state a ha => ?_⟩
  obtain ⟨hwaits, hone, hle⟩ := (hattempts σ _ t limit now state rfl).2 a ha
  rw [hpolicy] at hle
  exact ⟨hwaits, Nat.le_antisymm hle hone⟩

end ServerDiscovery
