import ServerDiscovery.Proofs.Exchange.Attempts

/-! # How long a run takes

Windows may overrun the budget: a doubled window is not cut.  But it is doubled only while more is
left than it is long, so no window is twice as long as what is left when its attempt begins.  That
is `Standing.Within`, and with it no deadline lies beyond twice the budget.

Once no more is left than the window is long, the window shrinks to what is left, and from then on
every deadline is the very end of the budget.  That is `Standing.Tight`; it is never lost again.  A
run whose timeout does not exceed the floor is tight from the beginning.

Both are invariants of `Exchange.Retries` on a transport that keeps time.

A run can be without end, but only if the clock stands still while it waits.  If every wait takes
time, then no run makes more attempts than it has nanoseconds.
-/

namespace ServerDiscovery

variable {σ : Type} {x : Exchange} {t : Transport σ} {budget : Budget} {here there : Standing σ}
  {limit : Nat} {now : Instant} {s : σ} {run : Run σ}

/-! ## 1. The clock in an attempt -/

/-- The time at which an attempt ends. -/
def AttemptEnd.time : AttemptEnd σ → Instant
  | .final _ now _ => now
  | .retry now _ _ => now

/-- An attempt ends no earlier than it begins and no later than its deadline. -/
theorem Exchange.now_of_attempt (ht : t.Timely) {a : Attempt} {counts : List Count}
    {e : AttemptEnd σ} (h : x.attempt t here = (a, counts, e)) :
    here.now ≤ e.time ∧ e.time ≤ here.now + here.window.nanos := by
  have hwait : here.now ≤ here.now + here.window.nanos := Nat.le_add_right ..
  cases Exchange.attempted_of_eq h with
  | broken _ _ => exact ⟨Nat.le_refl _, hwait⟩
  | answered _ _ => exact ⟨ht.now_le hwait, ht.le_deadline hwait⟩
  | rejected _ _ => exact ⟨ht.now_le hwait, ht.le_deadline hwait⟩
  | silent _ => exact ⟨ht.now_le hwait, ht.le_deadline hwait⟩

/-! ## 2. Windows shorter than twice what is left -/

/-- The window is shorter than twice what is left, if anything is left. -/
structure Standing.Within (budget : Budget) (here : Standing σ) : Prop where
  now_lt : here.now < budget.started + 2 * budget.total.nanos
  window_lt : budget.isExhausted here.now = false →
    here.window.nanos < 2 * (budget.remaining here.now).nanos

/-- No deadline lies beyond twice the budget. -/
theorem Standing.Within.deadline_lt (h : here.Within budget)
    (fresh : budget.isExhausted here.now = false) :
    here.now + here.window.nanos < budget.started + 2 * budget.total.nanos := by
  have hw := h.window_lt fresh
  rw [Budget.nanos_remaining] at hw
  unfold Instant
  omega

/-- A window is never twice as long as what was left when it was chosen. -/
theorem nanos_nextWindow_lt (current : Duration) {remaining : Duration}
    (h : 0 < remaining.nanos) :
    (nextWindow current remaining).nanos < 2 * remaining.nanos := by
  rw [nanos_nextWindow]
  split
  · omega
  · next hlt =>
    have : min (2 * current.nanos) longestNanos ≤ 2 * current.nanos := Nat.min_le_left ..
    omega

theorem Exchange.within_first (hfloor : 0 < x.policy.minTimeout.nanos) :
    (x.first now s).Within (x.budget now) where
  now_lt := by
    simp only [Exchange.first, Exchange.budget, Budget.start, Duration.nanos_max]
    unfold Instant
    omega
  window_lt := by
    intro _
    simp only [Exchange.first, Exchange.budget, Budget.start, Budget.nanos_remaining,
      Duration.nanos_max]
    omega

/-- After the first attempt no window is twice as long as what is left. -/
theorem Exchange.window_lt_next (x : Exchange) (here : Standing σ) {buffer : Bytes}
    (hfresh : budget.isExhausted now = false) :
    (x.next budget here now buffer s).window.nanos < 2 * (budget.remaining now).nanos := by
  refine nanos_nextWindow_lt here.window ?_
  have := Budget.isExhausted_eq_false_iff.mp hfresh
  rw [Budget.nanos_remaining]
  exact Nat.sub_pos_of_lt this

theorem Exchange.within_next (ht : t.Timely) (h : here.Within budget)
    (fresh : budget.isExhausted here.now = false) {a : Attempt} {counts : List Count}
    {buffer : Bytes} (ha : x.attempt t here = (a, counts, .retry now buffer s)) :
    (x.next budget here now buffer s).Within budget where
  now_lt := Nat.lt_of_le_of_lt (Exchange.now_of_attempt ht ha).2 (h.deadline_lt fresh)
  window_lt := x.window_lt_next here

/-- No fruitless attempt leads out of the budget. -/
theorem Exchange.Retries.within (ht : t.Timely) {attempts : List Attempt} {counts : List Count}
    (hr : x.Retries t budget here attempts counts there) (h : here.Within budget) :
    there.Within budget :=
  hr.invariant (fun fresh ha h => Exchange.within_next ht h fresh ha) h

/-! ## 3. Windows that are what is left -/

/-- The deadline is the end of the budget. -/
structure Standing.Tight (budget : Budget) (here : Standing σ) : Prop where
  started_le : budget.started ≤ here.now
  deadline_eq : here.now + here.window.nanos = budget.started + budget.total.nanos

/-- A run is tight from the beginning if its timeout does not exceed the floor. -/
theorem Exchange.tight_first (h : x.timeout ≤ x.policy.minTimeout) :
    (x.first now s).Tight (x.budget now) where
  started_le := Nat.le_refl _
  deadline_eq := by
    have hle := Duration.le_def.mp h
    simp only [Exchange.first, Exchange.budget, Budget.start, Duration.nanos_max]
    unfold Instant
    omega

/-- A window that was shrunk to what is left never grows again. -/
theorem Exchange.tight_next (ht : t.Timely) (h : here.Tight budget) {a : Attempt}
    {counts : List Count} {buffer : Bytes}
    (ha : x.attempt t here = (a, counts, .retry now buffer s)) :
    (x.next budget here now buffer s).Tight budget := by
  obtain ⟨hlow, hhigh⟩ : here.now ≤ now ∧ now ≤ here.now + here.window.nanos :=
    Exchange.now_of_attempt ht ha
  have hstarted := h.started_le
  have hdeadline := h.deadline_eq
  have hwindow : (nextWindow here.window (budget.remaining now)).nanos =
      budget.total.nanos - (now - budget.started) := by
    rw [nanos_nextWindow, Budget.nanos_remaining, if_pos]
    unfold Instant at *
    omega
  refine ⟨Nat.le_trans hstarted hlow, ?_⟩
  simp only [Exchange.next, hwindow]
  unfold Instant at *
  omega

theorem Exchange.Retries.tight (ht : t.Timely) {attempts : List Attempt} {counts : List Count}
    (hr : x.Retries t budget here attempts counts there) (h : here.Tight budget) :
    there.Tight budget :=
  hr.invariant (fun _ ha h => Exchange.tight_next ht h ha) h

/-! ## 4. Waits that take time -/

/-- Every wait takes time. -/
def Transport.TakesTime (t : Transport σ) : Prop :=
  ∀ {s now deadline size}, now < deadline → now < (t.receive s now deadline size).now

/-- There is something to wait for, if there is time. -/
structure Standing.Waiting (budget : Budget) (here : Standing σ) : Prop where
  started_le : budget.started ≤ here.now
  window_pos : budget.isExhausted here.now = false → 0 < here.window.nanos

theorem Exchange.waiting_first (hfloor : 0 < x.policy.minTimeout.nanos) :
    (x.first now s).Waiting (x.budget now) where
  started_le := Nat.le_refl _
  window_pos := fun _ => hfloor

/-- An attempt that is made again has taken time. -/
theorem Exchange.lt_of_retry (htime : t.TakesTime) {a : Attempt} {counts : List Count}
    {buffer : Bytes} (ha : x.attempt t here = (a, counts, .retry now buffer s))
    (hwindow : 0 < here.window.nanos) : here.now < now := by
  have hwait : here.now < here.now + here.window.nanos := Nat.lt_add_of_pos_right hwindow
  cases Exchange.attempted_of_eq ha with
  | rejected _ _ => exact htime hwait
  | silent _ => exact htime hwait

/-- No window is zero as long as there is time. -/
theorem Exchange.window_pos_next (x : Exchange) {buffer : Bytes} (hwindow : 0 < here.window.nanos)
    (hfresh : budget.isExhausted now = false) :
    0 < (x.next budget here now buffer s).window.nanos := by
  have hleft : 0 < budget.total.nanos - (now - budget.started) :=
    Nat.sub_pos_of_lt (Budget.isExhausted_eq_false_iff.mp hfresh)
  have hlongest : 0 < longestNanos := by decide
  simp only [Exchange.next]
  rw [nanos_nextWindow, Budget.nanos_remaining]
  split
  · exact hleft
  · omega

theorem Exchange.waiting_next (h : here.Waiting budget)
    (fresh : budget.isExhausted here.now = false) (hle : here.now ≤ now) {buffer : Bytes} :
    (x.next budget here now buffer s).Waiting budget where
  started_le := Nat.le_trans h.started_le hle
  window_pos := x.window_pos_next (h.window_pos fresh)

/-- **Fruitless attempts are no more than the nanoseconds that are left.** -/
theorem Exchange.Retries.length_le (htime : t.TakesTime) {attempts : List Attempt}
    {counts : List Count} (hr : x.Retries t budget here attempts counts there)
    (h : here.Waiting budget) : attempts.length ≤ (budget.remaining here.now).nanos := by
  induction hr with
  | refl here => exact Nat.zero_le _
  | @head here _ a now buffer s attempts _ _ fresh ha _ ih =>
    have hlt := Exchange.lt_of_retry htime ha (h.window_pos fresh)
    have hrest : attempts.length ≤ (budget.remaining now).nanos :=
      ih (Exchange.waiting_next h fresh (Nat.le_of_lt hlt))
    have hleft := Budget.isExhausted_eq_false_iff.mp fresh
    have hstarted := h.started_le
    rw [Budget.nanos_remaining] at hrest ⊢
    rw [List.length_cons]
    unfold Instant at *
    omega

/-! ## 5. Runs -/

/-- Every deadline that a run sets lies before twice its time, even if the run is never over. -/
theorem Exchange.deadline_lt_of_mem_attempts (ht : t.Timely)
    (hfloor : 0 < x.policy.minTimeout.nanos) {a : Attempt}
    (ha : a ∈ x.attempts t limit now s) :
    a.deadline < now + 2 * (max x.timeout x.policy.minTimeout).nanos := by
  obtain ⟨_, _, there, hr, hfresh, rfl⟩ := Exchange.exists_retries_of_mem_attemptsFrom ha
  rw [(x.attempt_fst t there).2.2]
  exact (hr.within ht (Exchange.within_first hfloor)).deadline_lt hfresh

/-- A run ends no later than the last deadline. -/
theorem Exchange.Ends.now_le (ht : t.Timely) (he : x.Ends t budget there run) :
    run.now ≤ there.now + there.window.nanos := by
  cases he with
  | spent _ => exact Nat.le_add_right ..
  | final _ ha => exact (Exchange.now_of_attempt ht ha).2

/-- A run is over before twice its time. -/
theorem Exchange.now_lt_of_run (ht : t.Timely) (hfloor : 0 < x.policy.minTimeout.nanos)
    (h : x.run t limit now s = some run) :
    run.now < now + 2 * (max x.timeout x.policy.minTimeout).nanos := by
  obtain ⟨attempts, counts, there, last, hr, -, he, rfl⟩ := Exchange.run_eq_some_iff.mp h
  have hwithin := hr.within ht (Exchange.within_first hfloor)
  cases he with
  | spent _ => exact hwithin.now_lt
  | final fresh ha =>
    exact Nat.lt_of_le_of_lt (Exchange.now_of_attempt ht ha).2 (hwithin.deadline_lt fresh)

/-- A run is over after as many attempts as it has nanoseconds, if every wait takes time. -/
theorem Exchange.run_ne_none (htime : t.TakesTime) (hfloor : 0 < x.policy.minTimeout.nanos)
    (hlimit : (max x.timeout x.policy.minTimeout).nanos < limit) :
    x.run t limit now s ≠ none := by
  intro hnone
  obtain ⟨attempts, counts, there, hr, rfl⟩ := Exchange.run_eq_none_iff.mp hnone
  have hle : attempts.length ≤ (max x.timeout x.policy.minTimeout).nanos - (now - now) := by
    have := hr.length_le htime (Exchange.waiting_first hfloor)
    rwa [Budget.nanos_remaining] at this
  omega

/-- A run whose timeout does not exceed the floor takes no longer than the floor. -/
theorem Exchange.now_le_of_run_of_le (ht : t.Timely) (hle : x.timeout ≤ x.policy.minTimeout)
    (h : x.run t limit now s = some run) : run.now ≤ now + x.policy.minTimeout.nanos := by
  obtain ⟨attempts, counts, there, last, hr, -, he, rfl⟩ := Exchange.run_eq_some_iff.mp h
  have htight := hr.tight ht (Exchange.tight_first hle)
  have htotal : (x.budget now).total.nanos = x.policy.minTimeout.nanos := by
    have := Duration.le_def.mp hle
    simp only [Exchange.budget, Budget.start, Duration.nanos_max]
    omega
  have hend := he.now_le ht
  rw [htight.deadline_eq, htotal] at hend
  exact hend

end ServerDiscovery
