import ServerDiscovery.Proofs.Exchange.Deadlines
import ServerDiscovery.Proofs.Handshake.Phases

/-! # How long a query takes

The second phase of a query has what time the first left, but never less than the floor.  So it can
begin after the timeout, and then takes the floor once more.  But it cannot overrun on top of that:
if no more is left than the floor, its windows are tight (`Exchange.now_le_of_run_of_le`); and if
more is left, the first phase ended early, and twice what it left is no more than twice the timeout.

`Transport.Timely.runs_in_time` states the bounds of a single exchange and of a query together.
-/

namespace ServerDiscovery

variable {σ : Type} {query : Query} {client : Nonce} {t : Transport σ} {timeout : Duration}
  {policy : RetryPolicy} {limit : Nat} {now : Instant} {s : σ} {run : Run σ}

/-- What the first phase leaves of the timeout. -/
theorem Duration.nanos_sub_since (timeout : Duration) (now earlier : Instant) :
    (timeout - Instant.since now earlier).nanos = timeout.nanos - (now - earlier) := by
  have hle := timeout.nanos_le
  rw [Duration.nanos_sub, Instant.since, Duration.nanos_ofNanos]
  omega

/-- A query is over before twice its time and the floor. -/
theorem Query.Fetched.now_lt (ht : t.Timely) (hfloor : 0 < policy.minTimeout.nanos)
    (h : query.Fetched client t timeout policy limit now s run) :
    run.now <
      now + (2 * (max timeout policy.minTimeout).nanos + policy.minTimeout.nanos) := by
  have hfirstPhase : ∀ {first : Run σ},
      (tokenExchange client timeout policy).run t limit now s = some first →
      first.now < now + 2 * (max timeout policy.minTimeout).nanos :=
    fun hfirst => Exchange.now_lt_of_run ht hfloor hfirst
  rw [← Nat.add_assoc]
  cases h with
  | refused hfirst _ => exact Nat.lt_add_right _ (hfirstPhase hfirst)
  | ungranted hfirst _ _ =>
    have hbefore := hfirstPhase hfirst
    exact Nat.lt_add_right _ hbefore
  | @asked first second response token hfirst _ _ hsecond =>
    have hbefore := hfirstPhase hfirst
    have hleft := Duration.nanos_sub_since timeout first.now now
    by_cases hle : timeout - Instant.since first.now now ≤ policy.minTimeout
    · -- The floor replaces what is left, and the second phase does not overrun it.
      have hafter : second.now ≤ first.now + policy.minTimeout.nanos :=
        Exchange.now_le_of_run_of_le ht hle hsecond
      exact Nat.lt_of_le_of_lt hafter (Nat.add_lt_add_right hbefore policy.minTimeout.nanos)
    · -- The first phase ended within the timeout.
      have hmore : policy.minTimeout.nanos < timeout.nanos - (first.now - now) := by
        rw [← hleft]
        exact Nat.lt_of_not_le fun hge => hle (Duration.le_def.mpr hge)
      have hafter : second.now < first.now + 2 * (timeout.nanos - (first.now - now)) := by
        have := Exchange.now_lt_of_run ht hfloor hsecond
        simp only [Query.exchange, Duration.nanos_max, hleft] at this
        rwa [Nat.max_eq_left (Nat.le_of_lt hmore)] at this
      simp only [Run.andThen, Duration.nanos_max]
      unfold Instant at *
      omega

/-- A query is over after a bounded number of attempts in each phase, if every wait takes time. -/
theorem Query.fetch_ne_none (htime : t.TakesTime) (hfloor : 0 < policy.minTimeout.nanos)
    (hlimit : (max timeout policy.minTimeout).nanos < limit) :
    query.fetch client t timeout policy limit now s ≠ none := by
  rcases hfirst : (tokenExchange client timeout policy).run t limit now s with _ | first
  · exact absurd hfirst (Exchange.run_ne_none htime hfloor hlimit)
  · rcases hresult : first.result with e | response
    · simp [Query.fetch_of_error hfirst hresult]
    · rcases hparse : parseToken? response with _ | token
      · simp [Query.fetch_of_ungranted hfirst hresult hparse]
      · have hless : (max (timeout - Instant.since first.now now) policy.minTimeout).nanos ≤
            (max timeout policy.minTimeout).nanos := by
          rw [Duration.nanos_max, Duration.nanos_max, Duration.nanos_sub]
          omega
        have hsecond : (query.exchange token (timeout - Instant.since first.now now) policy).run t
            limit first.now first.state ≠ none :=
          Exchange.run_ne_none htime hfloor (Nat.lt_of_le_of_lt hless hlimit)
        rw [Query.fetch_of_granted hfirst hresult hparse]
        simpa using hsecond

/-- **Exchanges and queries are over in time.**  On a transport that keeps time an exchange sets no
deadline as late as twice its time, and is over before that.  A query takes less than twice its time
and the floor.  Both are over in the end if every wait takes time.

No deadline is taken to overflow the clock (`Instant`). -/
theorem Transport.Timely.runs_in_time (ht : t.Timely) :
    (∀ (x : Exchange) (limit : Nat) (now : Instant) (s : σ), 0 < x.policy.minTimeout.nanos →
      (∀ a ∈ x.attempts t limit now s,
        a.deadline < now + 2 * (max x.timeout x.policy.minTimeout).nanos) ∧
      (∀ run, x.run t limit now s = some run →
        run.attempts = x.attempts t limit now s ∧
        run.now < now + 2 * (max x.timeout x.policy.minTimeout).nanos) ∧
      (t.TakesTime → (max x.timeout x.policy.minTimeout).nanos < limit →
        x.run t limit now s ≠ none)) ∧
    ∀ (query : Query) (client : Nonce) (timeout : Duration) (policy : RetryPolicy) (limit : Nat)
      (now : Instant) (s : σ), 0 < policy.minTimeout.nanos →
      (∀ run, query.fetch client t timeout policy limit now s = some run →
        run.now - now < 2 * (max timeout policy.minTimeout).nanos + policy.minTimeout.nanos) ∧
      (t.TakesTime → (max timeout policy.minTimeout).nanos < limit →
        query.fetch client t timeout policy limit now s ≠ none) := by
  refine ⟨fun x limit now s hfloor => ⟨fun a ha => ?_, fun run h => ?_, fun htime hlimit => ?_⟩,
    fun query client timeout policy limit now s hfloor => ⟨fun run h => ?_, fun htime hlimit => ?_⟩⟩
  · exact Exchange.deadline_lt_of_mem_attempts ht hfloor ha
  · exact ⟨(Exchange.attempts_of_run h).symm, Exchange.now_lt_of_run ht hfloor h⟩
  · exact Exchange.run_ne_none htime hfloor hlimit
  · have hlt := (Query.fetch_eq_some_iff.mp h).now_lt ht hfloor
    unfold Instant at *
    omega
  · exact Query.fetch_ne_none htime hfloor hlimit

/-- A transport that brings nothing. -/
def mute : Transport Unit where
  send := fun s _ datagram => (.ok datagram.length, s)
  receive := fun s _ deadline _ => ⟨.error .silence, deadline, s⟩

theorem timely_mute : mute.Timely := ⟨fun h => h, fun _ => Nat.le_refl _⟩

theorem takesTime_mute : mute.TakesTime := fun h => h

/-- An exchange overruns its time on a mute transport, and a query takes less than its time on a
good line. -/
theorem Transport.Timely.runs_in_time_mute :
    (∃ run, (tokenExchange ⟨1, 2, 3, 4⟩ (.ofSeconds 1 0) singleCopies).run mute 6 0 () = some run ∧
      run.now = 1085 * nanosPerMilli ∧ run.now < 0 + 2 * (Duration.ofSeconds 1 0).nanos) ∧
    (∀ limit, (Duration.ofSeconds 1 0).nanos < limit →
      (tokenExchange ⟨1, 2, 3, 4⟩ (.ofSeconds 1 0) singleCopies).run mute limit 0 () ≠ none) ∧
    ∃ run, Query.serverList.fetch ⟨1, 2, 3, 4⟩ (Line.transport ScriptedPeer.react) (.ofSeconds 1 0)
        singleCopies 2 0 lateAnswer = some run ∧
      run.now - 0 < 2 * (Duration.ofSeconds 1 0).nanos + defaultMinTimeout.nanos := by
  have hsilent : ((tokenExchange ⟨1, 2, 3, 4⟩ (.ofSeconds 1 0) singleCopies).run mute 6 0 ()).map
      Run.now = some (1085 * nanosPerMilli) := by decide +kernel
  have hasked : ((Query.serverList.fetch ⟨1, 2, 3, 4⟩ (Line.transport ScriptedPeer.react)
      (.ofSeconds 1 0) singleCopies 2 0 lateAnswer).map Run.now).isSome := by decide +kernel
  have hmax : (max (Duration.ofSeconds 1 0) singleCopies.minTimeout).nanos =
      (Duration.ofSeconds 1 0).nanos := by decide +kernel
  have hfloor : 0 < singleCopies.minTimeout.nanos := by decide +kernel
  obtain ⟨run, hrun, hnow⟩ := Option.map_eq_some_iff.mp hsilent
  obtain ⟨fetched, hfetched⟩ := Option.isSome_iff_exists.mp (by simpa using hasked)
  obtain ⟨hexchange, -⟩ := Transport.Timely.runs_in_time timely_mute
  obtain ⟨-, hquery⟩ := Transport.Timely.runs_in_time
    (Line.lawful_transport ScriptedPeer.react).toTimely
  have hbound := fun limit => hexchange (tokenExchange ⟨1, 2, 3, 4⟩ (.ofSeconds 1 0) singleCopies)
    limit 0 () hfloor
  refine ⟨⟨run, hrun, hnow, ?_⟩, fun limit hlimit => ?_, fetched, hfetched, ?_⟩
  · rw [← hmax]
    exact ((hbound 6).2.1 run hrun).2
  · exact (hbound limit).2.2 takesTime_mute (hmax ▸ hlimit)
  · rw [← hmax]
    exact (hquery .serverList ⟨1, 2, 3, 4⟩ (.ofSeconds 1 0) singleCopies 2 0 lateAnswer hfloor).1
      fetched hfetched

end ServerDiscovery
