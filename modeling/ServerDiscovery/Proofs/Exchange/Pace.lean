import Mathlib.Algebra.Ring.Nat
import ServerDiscovery.Proofs.Exchange.Schedule
import ServerDiscovery.Proofs.Handshake.Elapsed

/-! # How many attempts a run makes

Nothing limits the attempts of a run but time, and near the end of the budget windows get as short
as they like.  Still a run makes few attempts.  A window is either as long as the floor at least or
all that is left (`Standing.Ample`); so a wait that lasts up to its deadline takes at least as long
as the floor, or it is the last one.  If every wait that ends earlier takes a least time, attempts
begin that far apart (`Exchange.Retries.pace`), and all of them begin within the budget.

A peer that never answers is waited for up to every deadline.  Then the window is the floor and all
the time that has passed, until it is all that is left (`Standing.Waited`): the time doubles with
each attempt.  The last doubled window may overrun the budget, but never by half of it, because it
was chosen when more was left than the window before it was long.
-/

namespace ServerDiscovery

variable {σ : Type} {x : Exchange} {t : Transport σ} {budget : Budget} {here there : Standing σ}
  {floor : Duration} {step limit : Nat} {now : Instant} {buffer : Bytes} {s : σ} {a : Attempt}
  {attempts : List Attempt} {counts : List Count} {run : Run σ}

/-! ## 1. Waits that do not end at once -/

/-- Every wait ends at its deadline, or takes at least `step`. -/
def Transport.Paced (t : Transport σ) (step : Nat) : Prop :=
  ∀ {s now deadline size}, now ≤ deadline →
    (t.receive s now deadline size).now = deadline ∨
      now + step ≤ (t.receive s now deadline size).now

/-- The window is as long as the floor at least, or it is all that is left. -/
structure Standing.Ample (floor : Duration) (budget : Budget) (here : Standing σ) : Prop where
  started_le : budget.started ≤ here.now
  window : floor.nanos ≤ here.window.nanos ∨
    here.now + here.window.nanos = budget.started + budget.total.nanos

theorem Exchange.ample_first (x : Exchange) (now : Instant) (s : σ) :
    (x.first now s).Ample x.policy.minTimeout (x.budget now) where
  started_le := Nat.le_refl _
  window := .inl (Nat.le_refl _)

/-- Later windows are ample too, whenever the next attempt begins. -/
theorem Exchange.ample_next (h : here.Ample floor budget) (hle : here.now ≤ now)
    (hfresh : budget.isExhausted now = false) :
    (x.next budget here now buffer s).Ample floor budget where
  started_le := Nat.le_trans h.started_le hle
  window := by
    by_cases hleft : (budget.remaining now).nanos ≤ here.window.nanos
    · have htight : (x.next budget here now buffer s).Tight budget :=
        Exchange.tight_next_of_le (Nat.le_trans h.started_le hle) hleft hfresh
      exact .inr htight.deadline_eq
    · left
      have hfloor : floor.nanos ≤ here.window.nanos := by
        refine h.window.resolve_right fun hend => hleft ?_
        rw [Budget.nanos_remaining]
        unfold Instant at *
        omega
      have hlongest := floor.nanos_le
      simp only [Exchange.next]
      rw [nanos_nextWindow, if_neg hleft]
      omega

/-- An attempt that another one follows has taken its time. -/
theorem Exchange.add_le_of_retry (ht : t.Paced step) (h : here.Ample floor budget)
    (ha : x.attempt t here = (a, counts, .retry now buffer s))
    (hfresh : budget.isExhausted now = false) : here.now + min step floor.nanos ≤ now := by
  have hwait : now = here.now + here.window.nanos ∨ here.now + step ≤ now := by
    cases Exchange.attempted_of_eq ha with
    | rejected _ _ => exact ht (Nat.le_add_right ..)
    | silent _ => exact ht (Nat.le_add_right ..)
  rcases hwait with hend | hstep
  · have hlt := Budget.isExhausted_eq_false_iff.mp hfresh
    have hwindow := h.window
    -- A wait for all that is left would have been the last.
    unfold Instant at *
    omega
  · exact Nat.le_trans (Nat.add_le_add_left (Nat.min_le_left ..) _) hstep

/-- **Attempts begin some time apart**: no sooner after each other than a wait takes that ends
early, or than the floor. -/
theorem Exchange.Retries.pace (ht : t.Paced step)
    (hr : x.Retries t budget here attempts counts there) (h : here.Ample floor budget)
    (hfresh : budget.isExhausted there.now = false) :
    here.now + attempts.length * min step floor.nanos ≤ there.now := by
  induction hr with
  | refl here =>
    rw [List.length_nil, Nat.zero_mul]
    exact Nat.le_refl _
  | @head here there a now buffer s attempts _ _ _ ha hrest ih =>
    have hnext : budget.isExhausted now = false := hrest.fresh hfresh
    have hstep := Exchange.add_le_of_retry ht h ha hnext
    have hle : here.now ≤ now := Nat.le_trans (Nat.le_add_right ..) hstep
    have hlater : now + attempts.length * min step floor.nanos ≤ there.now :=
      ih (Exchange.ample_next h hle hnext) hfresh
    rw [List.length_cons, Nat.succ_mul]
    unfold Instant at *
    omega

/-- The last attempt of a run begins while there is time, behind all others. -/
theorem Exchange.exists_retries_of_length_attempts (x : Exchange) (t : Transport σ)
    (now : Instant) (s : σ) (h : (x.attempts t limit now s).length ≠ 0) :
    ∃ attempts counts there, x.Retries t (x.budget now) (x.first now s) attempts counts there ∧
      attempts.length = (x.attempts t limit now s).length - 1 ∧
      (x.budget now).isExhausted there.now = false := by
  have hlast : (x.attempts t limit now s).length - 1 < (x.attempts t limit now s).length :=
    Nat.sub_one_lt h
  obtain ⟨attempts, counts, there, hr, hlength, hfresh, -⟩ :=
    Exchange.exists_retries_of_attemptsFrom_getElem? (List.getElem?_eq_getElem hlast)
  exact ⟨attempts, counts, there, hr, hlength, hfresh⟩

/-- A run makes few attempts, whether or not it is over. -/
theorem Exchange.length_attempts_mul_lt (ht : t.Paced step)
    (hfloor : 0 < x.policy.minTimeout.nanos) :
    ((x.attempts t limit now s).length - 1) * min step x.policy.minTimeout.nanos <
      (max x.timeout x.policy.minTimeout).nanos := by
  by_cases hempty : (x.attempts t limit now s).length = 0
  · rw [hempty, Duration.nanos_max]
    omega
  · obtain ⟨attempts, counts, there, hr, hlength, hfresh⟩ :=
      x.exists_retries_of_length_attempts t now s hempty
    have hpace : now + attempts.length * min step x.policy.minTimeout.nanos ≤ there.now :=
      hr.pace ht (x.ample_first now s) hfresh
    have hlt : there.now - now < (max x.timeout x.policy.minTimeout).nanos :=
      Budget.isExhausted_eq_false_iff.mp hfresh
    rw [← hlength]
    unfold Instant at *
    omega

/-- A run is over in the end. -/
theorem Exchange.exists_run (ht : t.Paced step) (hstep : 0 < step)
    (hfloor : 0 < x.policy.minTimeout.nanos) (now : Instant) (s : σ) :
    ∃ run, ∀ limit, run.attempts.length < limit → x.run t limit now s = some run := by
  cases h : x.run t ((max x.timeout x.policy.minTimeout).nanos + 1) now s with
  | some run => exact ⟨run, fun limit hlt => Exchange.run_of_length_lt h hlt⟩
  | none =>
    have hall := (Exchange.run_eq_none_iff_undecided.mp h).1
    have hfew : ((x.attempts t ((max x.timeout x.policy.minTimeout).nanos + 1) now s).length - 1)
        * min step x.policy.minTimeout.nanos < (max x.timeout x.policy.minTimeout).nanos :=
      Exchange.length_attempts_mul_lt ht hfloor
    rw [hall, Nat.add_sub_cancel] at hfew
    have hpace : 0 < min step x.policy.minTimeout.nanos := Nat.lt_min.mpr ⟨hstep, hfloor⟩
    exact absurd hfew (Nat.not_lt.mpr (Nat.le_mul_of_pos_right _ hpace))

/-! ## 2. Peers that never answer -/

/-- Every send completes, and every wait is in vain and lasts up to its deadline. -/
structure Transport.Silent (t : Transport σ) : Prop where
  complete : t.Complete
  outcome : ∀ {s now deadline size}, now ≤ deadline →
    ∃ failure, (t.receive s now deadline size).outcome = .error failure
  now_eq : ∀ {s now deadline size}, now ≤ deadline →
    (t.receive s now deadline size).now = deadline

theorem Transport.Silent.paced (ht : t.Silent) (step : Nat) : t.Paced step :=
  fun h => .inl (ht.now_eq h)

/-- Every attempt is made again, at its deadline. -/
theorem Transport.Silent.exists_attempt (ht : t.Silent) (x : Exchange) (here : Standing σ) :
    ∃ a counts s,
      x.attempt t here = (a, counts, .retry (here.now + here.window.nanos) here.buffer s) := by
  have hwait : here.now ≤ here.now + here.window.nanos := Nat.le_add_right ..
  obtain ⟨failure, houtcome⟩ : ∃ failure, (x.wait t here).outcome = .error failure :=
    ht.outcome hwait
  have hnow : (x.wait t here).now = here.now + here.window.nanos := ht.now_eq hwait
  have hattempt := Exchange.attempt_of_silent ht.complete houtcome
  rw [hnow] at hattempt
  exact ⟨_, _, _, hattempt⟩

theorem Transport.Silent.now_of_retry (ht : t.Silent)
    (ha : x.attempt t here = (a, counts, .retry now buffer s)) :
    now = here.now + here.window.nanos := by
  obtain ⟨_, _, _, h⟩ := ht.exists_attempt x here
  rw [h] at ha
  cases ha
  rfl

/-- All waits so far lasted up to their deadlines: the window is as long as the floor and all the
time that has passed, or it is all that is left; and less than one and a half times the budget has
passed, now and at the deadline. -/
structure Standing.Waited (floor : Duration) (budget : Budget) (here : Standing σ) : Prop where
  started_le : budget.started ≤ here.now
  now_lt : 2 * (here.now - budget.started) < 3 * budget.total.nanos
  window_eq : budget.isExhausted here.now = false →
    here.window.nanos = here.now - budget.started + floor.nanos ∨
      here.now + here.window.nanos = budget.started + budget.total.nanos
  deadline_lt : budget.isExhausted here.now = false →
    2 * (here.now + here.window.nanos - budget.started) < 3 * budget.total.nanos

theorem Exchange.waited_first (hfloor : 0 < x.policy.minTimeout.nanos) (now : Instant) (s : σ) :
    (x.first now s).Waited x.policy.minTimeout (x.budget now) where
  started_le := Nat.le_refl _
  now_lt := by
    simp only [Exchange.first, Exchange.budget, Budget.start, Duration.nanos_max]
    unfold Instant
    omega
  window_eq := fun _ => .inl (by simp [Exchange.first, Exchange.budget, Budget.start])
  deadline_lt := by
    intro _
    simp only [Exchange.first, Exchange.budget, Budget.start, Duration.nanos_max]
    unfold Instant
    omega

theorem Exchange.waited_next (h : here.Waited floor budget)
    (fresh : budget.isExhausted here.now = false) :
    (x.next budget here (here.now + here.window.nanos) buffer s).Waited floor budget := by
  have hstarted := h.started_le
  have hwindow := h.window_eq fresh
  have hdeadline := h.deadline_lt fresh
  have hlt := Budget.isExhausted_eq_false_iff.mp fresh
  have htotal := budget.total.nanos_le
  have hnext : (x.next budget here (here.now + here.window.nanos) buffer s).window.nanos =
      if budget.total.nanos - (here.now + here.window.nanos - budget.started) ≤ here.window.nanos
      then budget.total.nanos - (here.now + here.window.nanos - budget.started)
      else min (2 * here.window.nanos) longestNanos := by
    simp only [Exchange.next]
    rw [nanos_nextWindow, Budget.nanos_remaining]
  refine ⟨Nat.le_trans hstarted (Nat.le_add_right ..), hdeadline, fun hfresh => ?_,
    fun hfresh => ?_⟩
  all_goals
    have hlater := Budget.isExhausted_eq_false_iff.mp hfresh
    simp only [Exchange.next] at hlater hnext ⊢
    rw [hnext]
    unfold Instant at *
    split <;> omega

/-- No wait for a peer that never answers leads out of one and a half times the budget. -/
theorem Exchange.Retries.waited (ht : t.Silent)
    (hr : x.Retries t budget here attempts counts there) (h : here.Waited floor budget) :
    there.Waited floor budget := by
  refine hr.invariant (fun {here} _ _ now _ _ fresh ha h => ?_) h
  obtain rfl : now = here.now + here.window.nanos := ht.now_of_retry ha
  exact Exchange.waited_next h fresh

/-- **The time doubles with each attempt**, from the floor on, as long as there is time for
another. -/
theorem Exchange.Retries.elapsed_add_floor (ht : t.Silent)
    (hr : x.Retries t budget here attempts counts there) (h : here.Waited floor budget)
    (hfresh : budget.isExhausted there.now = false) :
    there.now - budget.started + floor.nanos =
      2 ^ attempts.length * (here.now - budget.started + floor.nanos) := by
  induction hr with
  | refl here => rw [List.length_nil, Nat.pow_zero, Nat.one_mul]
  | @head here there a now buffer s attempts _ _ fresh ha hrest ih =>
    obtain rfl : now = here.now + here.window.nanos := ht.now_of_retry ha
    have hlater := Budget.isExhausted_eq_false_iff.mp (hrest.fresh hfresh)
    -- A wait for all that is left would have been the last.
    have hwindow : here.window.nanos = here.now - budget.started + floor.nanos := by
      refine (h.window_eq fresh).resolve_right fun hend => ?_
      simp only [Exchange.next, hend] at hlater
      unfold Instant at *
      omega
    have hdoubled : here.now + here.window.nanos - budget.started + floor.nanos =
        2 * (here.now - budget.started + floor.nanos) := by
      have hstarted := h.started_le
      unfold Instant at *
      omega
    have hrec : there.now - budget.started + floor.nanos =
        2 ^ attempts.length *
          (here.now + here.window.nanos - budget.started + floor.nanos) :=
      ih (Exchange.waited_next h fresh) hfresh
    rw [hrec, hdoubled, List.length_cons, Nat.pow_succ, Nat.mul_assoc]

/-- A run to a peer that never answers ends where its time is spent. -/
theorem Exchange.exhausted_of_run (ht : t.Silent) (h : x.run t limit now s = some run) :
    ∃ attempts counts there, x.Retries t (x.budget now) (x.first now s) attempts counts there ∧
      (x.budget now).isExhausted there.now = true ∧ run.result = .error .timeout ∧
      run.now = there.now := by
  obtain ⟨attempts, counts, there, last, hr, -, he, rfl⟩ := Exchange.run_eq_some_iff.mp h
  cases he with
  | spent hx => exact ⟨attempts, counts, there, hr, hx, rfl, rfl⟩
  | final _ ha =>
    obtain ⟨_, _, _, hretry⟩ := ht.exists_attempt x there
    rw [hretry] at ha
    cases ha

/-- The attempts of a run to a peer that never answers are few, as their windows double. -/
theorem Exchange.two_pow_length_attempts_lt (ht : t.Silent)
    (hfloor : 0 < x.policy.minTimeout.nanos) :
    (2 ^ ((x.attempts t limit now s).length - 1) - 1) * x.policy.minTimeout.nanos <
      (max x.timeout x.policy.minTimeout).nanos := by
  by_cases hempty : (x.attempts t limit now s).length = 0
  · rw [hempty, Duration.nanos_max]
    omega
  · obtain ⟨attempts, counts, there, hr, hlength, hfresh⟩ :=
      x.exists_retries_of_length_attempts t now s hempty
    have hdoubled : there.now - now + x.policy.minTimeout.nanos =
        2 ^ attempts.length * (now - now + x.policy.minTimeout.nanos) :=
      hr.elapsed_add_floor ht (Exchange.waited_first hfloor now s) hfresh
    have hlt : there.now - now < (max x.timeout x.policy.minTimeout).nanos :=
      Budget.isExhausted_eq_false_iff.mp hfresh
    rw [Nat.sub_self, Nat.zero_add] at hdoubled
    rw [← hlength, Nat.sub_mul, Nat.one_mul, ← hdoubled, Nat.add_sub_cancel]
    exact hlt

/-! ## 3. Runs -/

/-- **Runs are over after few attempts.**  If every wait ends at its deadline or takes a least time,
a run is over, and its attempts but one, each taken for that time or for the floor, are shorter than
its budget.  With a peer that never answers it runs out of time, before one and a half times its
budget, and after as many attempts as the floor can be doubled.

The timeout may be as long as a `Duration` can be.  No deadline is taken to overflow the clock, as a
host's would that lies beyond about `2 ^ 63` seconds (`Instant`). -/
theorem Exchange.over_after_few_attempts (hfloor : 0 < x.policy.minTimeout.nanos) (now : Instant)
    (s : σ) :
    (∀ step, 0 < step → t.Paced step →
      ∃ run, (∀ limit, run.attempts.length < limit → x.run t limit now s = some run) ∧
        (run.attempts.length - 1) * min step x.policy.minTimeout.nanos <
          (max x.timeout x.policy.minTimeout).nanos) ∧
    (t.Silent →
      ∃ run, (∀ limit, run.attempts.length < limit → x.run t limit now s = some run) ∧
        run.result = .error .timeout ∧
        (max x.timeout x.policy.minTimeout).nanos ≤ run.now - now ∧
        2 * (run.now - now) < 3 * (max x.timeout x.policy.minTimeout).nanos ∧
        (2 ^ (run.attempts.length - 1) - 1) * x.policy.minTimeout.nanos <
          (max x.timeout x.policy.minTimeout).nanos) := by
  refine ⟨fun step hstep ht => ?_, fun ht => ?_⟩
  · obtain ⟨run, hrun⟩ := Exchange.exists_run ht hstep hfloor now s
    have hattempts := Exchange.attempts_of_run (hrun _ (Nat.lt_succ_self _))
    refine ⟨run, hrun, ?_⟩
    rw [← hattempts]
    exact Exchange.length_attempts_mul_lt ht hfloor
  · obtain ⟨run, hrun⟩ := Exchange.exists_run (ht.paced 1) Nat.one_pos hfloor now s
    have hover := hrun _ (Nat.lt_succ_self _)
    have hattempts := Exchange.attempts_of_run hover
    obtain ⟨attempts, counts, there, hr, hexhausted, hresult, hnow⟩ :=
      Exchange.exhausted_of_run ht hover
    refine ⟨run, hrun, hresult, ?_, ?_, ?_⟩
    · rw [hnow]
      exact Budget.isExhausted_eq_true_iff.mp hexhausted
    · rw [hnow]
      exact (hr.waited ht (Exchange.waited_first hfloor now s)).now_lt
    · rw [← hattempts]
      exact Exchange.two_pow_length_attempts_lt ht hfloor

/-- A transport that brings a byte after a millisecond, if that is in time. -/
def chatty : Transport Unit where
  send := fun s _ datagram => (.ok datagram.length, s)
  receive := fun s now deadline _ =>
    if now + nanosPerMilli ≤ deadline then ⟨.ok [7], now + nanosPerMilli, s⟩
    else ⟨.error .silence, deadline, s⟩

theorem paced_chatty : chatty.Paced nanosPerMilli := by
  intro s now deadline size _
  simp only [chatty]
  split
  · exact .inr (Nat.le_refl _)
  · exact .inl rfl

theorem silent_mute : mute.Silent where
  complete _ _ _ := rfl
  outcome _ := ⟨.silence, rfl⟩
  now_eq _ := rfl

/-- A run is over after an attempt for every millisecond of its budget, if each brings a byte that
is no token, and after five attempts if they bring nothing. -/
theorem Exchange.over_after_few_attempts_chattyAndMute :
    (∃ run, (tokenExchange ⟨1, 2, 3, 4⟩ (.ofMillis 1) singleCopies).run chatty 36 0 () = some run ∧
      run.attempts.length = 35 ∧
      (run.attempts.length - 1) * min nanosPerMilli singleCopies.minTimeout.nanos <
        (max (Duration.ofMillis 1) singleCopies.minTimeout).nanos) ∧
    ∃ run, (tokenExchange ⟨1, 2, 3, 4⟩ (.ofSeconds 1 0) singleCopies).run mute 6 0 () = some run ∧
      run.result = .error .timeout ∧ run.attempts.length = 5 ∧ run.now = 1085 * nanosPerMilli ∧
      2 * (run.now - 0) < 3 * (max (Duration.ofSeconds 1 0) singleCopies.minTimeout).nanos ∧
      (2 ^ (run.attempts.length - 1) - 1) * singleCopies.minTimeout.nanos <
        (max (Duration.ofSeconds 1 0) singleCopies.minTimeout).nanos := by
  have hfloor : 0 < singleCopies.minTimeout.nanos := by decide +kernel
  have hchatty : ((tokenExchange ⟨1, 2, 3, 4⟩ (.ofMillis 1) singleCopies).run chatty 36 0 ()).map
      (fun run => run.attempts.length) = some 35 := by decide +kernel
  have hmute : ((tokenExchange ⟨1, 2, 3, 4⟩ (.ofSeconds 1 0) singleCopies).run mute 6 0 ()).map
      (fun run => (run.attempts.length, run.now)) = some (5, 1085 * nanosPerMilli) := by
    decide +kernel
  obtain ⟨talk, htalk, hmany⟩ := Option.map_eq_some_iff.mp hchatty
  obtain ⟨wait, hwait, htimes⟩ := Option.map_eq_some_iff.mp hmute
  obtain ⟨hlength, hnow⟩ := Prod.mk.inj htimes
  obtain ⟨talk', htalk', hfew⟩ := (Exchange.over_after_few_attempts
    (x := tokenExchange ⟨1, 2, 3, 4⟩ (.ofMillis 1) singleCopies) hfloor 0 ()).1
    nanosPerMilli (by decide) paced_chatty
  obtain ⟨wait', hwait', hresult, -, hlate, hdoubled⟩ := (Exchange.over_after_few_attempts
    (x := tokenExchange ⟨1, 2, 3, 4⟩ (.ofSeconds 1 0) singleCopies) hfloor 0 ()).2 silent_mute
  obtain rfl : talk = talk' := Exchange.run_unique htalk (htalk' _ (Nat.lt_succ_self _))
  obtain rfl : wait = wait' := Exchange.run_unique hwait (hwait' _ (Nat.lt_succ_self _))
  exact ⟨⟨talk, htalk, hmany, hfew⟩, wait, hwait, hresult, hlength, hnow, hlate, hdoubled⟩

end ServerDiscovery
