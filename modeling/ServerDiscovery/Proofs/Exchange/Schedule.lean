import Mathlib.Algebra.Ring.Nat
import ServerDiscovery.Proofs.Exchange.Deadlines
import ServerDiscovery.Proofs.Exchange.Outcome

/-! # The schedule of a run

The windows of a run follow one of two regimes.  At first each window is twice the one before, from
the floor on: that is `Standing.Doubled`, with the number of doublings.  Once no more is left than a
window is long, every window is what is left, so every deadline is the end of the budget: that is
`Standing.Tight`.  The first regime can lead to the second, and nothing leads back.

There is one switch for a run, however far it is followed (`Exchange.exists_switch`), even if it is
never over: while windows double they are shorter than what is left, and they grow each time, so
they cannot double for ever.

Of the transport only this is used: its clock does not run backwards (`Transport.Forward`).  It may
wait beyond a deadline; then the budget is spent, and there is no further attempt.
-/

namespace ServerDiscovery

variable {σ : Type} {x : Exchange} {t : Transport σ} {budget : Budget} {here there : Standing σ}
  {limit i : Nat} {now : Instant} {buffer : Bytes} {s : σ} {attempts : List Attempt}
  {counts : List Count} {a : Attempt}

/-! ## 1. The clock -/

/-- The clock does not run backwards while the transport waits. -/
def Transport.Forward (t : Transport σ) : Prop :=
  ∀ {s now deadline size}, now ≤ deadline → now ≤ (t.receive s now deadline size).now

theorem Transport.Timely.forward (ht : t.Timely) : t.Forward := ht.now_le

theorem Exchange.le_of_retry (ht : t.Forward)
    (ha : x.attempt t here = (a, counts, .retry now buffer s)) : here.now ≤ now := by
  have hwait : here.now ≤ here.now + here.window.nanos := Nat.le_add_right ..
  cases Exchange.attempted_of_eq ha with
  | rejected _ _ => exact ht hwait
  | silent _ => exact ht hwait

theorem Exchange.Retries.now_le (ht : t.Forward)
    (hr : x.Retries t budget here attempts counts there) : here.now ≤ there.now := by
  induction hr with
  | refl here => exact Nat.le_refl _
  | head _ ha _ ih => exact Nat.le_trans (Exchange.le_of_retry ht ha) ih

/-- The attempts of a run begin one after the other. -/
theorem Exchange.pairwise_started (ht : t.Forward) (x : Exchange) (budget : Budget) (limit : Nat)
    (here : Standing σ) :
    (x.attemptsFrom t budget limit here).Pairwise fun a b => a.started ≤ b.started := by
  induction limit generalizing here with
  | zero => exact .nil
  | succ limit ih =>
    cases hx : budget.isExhausted here.now with
    | true => simp [Exchange.attemptsFrom, hx]
    | false =>
      rcases ha : x.attempt t here with ⟨a, counts, ⟨result, now, s⟩ | ⟨now, buffer, s⟩⟩
      · simp [Exchange.attemptsFrom, hx, ha]
      · simp only [Exchange.attemptsFrom, hx, ha, Bool.false_eq_true, if_false]
        refine .cons (fun b hb => ?_) (ih _)
        obtain ⟨_, _, there, hr, -, rfl⟩ := Exchange.exists_retries_of_mem_attemptsFrom hb
        have hstarted : a.started = here.now := by
          have := (x.attempt_fst t here).2.1
          rwa [ha] at this
        rw [hstarted, (x.attempt_fst t there).2.1]
        exact Nat.le_trans (Exchange.le_of_retry ht ha) (hr.now_le ht)

/-! ## 2. Windows that are neither zero nor too long -/

/-- The window is positive, and shorter than twice what is left. -/
structure Standing.Bounded (budget : Budget) (here : Standing σ) : Prop where
  window_pos : 0 < here.window.nanos
  window_lt : here.window.nanos < 2 * (budget.remaining here.now).nanos

theorem Exchange.bounded_first (hfloor : 0 < x.policy.minTimeout.nanos) :
    (x.first now s).Bounded (x.budget now) where
  window_pos := hfloor
  window_lt := by
    simp only [Exchange.first, Exchange.budget, Budget.start, Budget.nanos_remaining,
      Duration.nanos_max]
    omega

/-- **No attempt waits for no time**, nor for as long as twice what is left, whatever the transport
does. -/
theorem Exchange.Retries.bounded (hfloor : 0 < x.policy.minTimeout.nanos)
    (hr : x.Retries t (x.budget now) (x.first now s) attempts counts there)
    (hfresh : (x.budget now).isExhausted there.now = false) : there.Bounded (x.budget now) := by
  have hstep := hr.invariant
    (P := fun there => (x.budget now).isExhausted there.now = false → there.Bounded (x.budget now))
  refine hstep (fun {here} _ _ _ _ _ fresh _ h hnext => ?_) (fun _ => Exchange.bounded_first hfloor)
    hfresh
  exact ⟨x.window_pos_next (h fresh).window_pos hnext, x.window_lt_next here hnext⟩

/-- Every attempt of a run waits. -/
theorem Exchange.started_lt_deadline_of_mem_attempts (hfloor : 0 < x.policy.minTimeout.nanos)
    (h : a ∈ x.attempts t limit now s) : a.started < a.deadline := by
  obtain ⟨_, _, there, hr, hfresh, rfl⟩ := Exchange.exists_retries_of_mem_attemptsFrom h
  obtain ⟨-, hstarted, hdeadline⟩ := x.attempt_fst t there
  rw [hstarted, hdeadline]
  exact Nat.lt_add_of_pos_right (hr.bounded hfloor hfresh).window_pos

/-! ## 3. Windows that double -/

/-- The window is the floor, doubled `i` times, or the longest there is. -/
def Standing.Doubled (floor : Duration) (i : Nat) (here : Standing σ) : Prop :=
  here.window.nanos = min (floor.nanos * 2 ^ i) longestNanos

theorem Exchange.doubled_first (x : Exchange) (now : Instant) (s : σ) :
    (x.first now s).Doubled x.policy.minTimeout 0 := by
  have hle := x.policy.minTimeout.nanos_le
  simp only [Standing.Doubled, Exchange.first, Nat.pow_zero, Nat.mul_one]
  exact (Nat.min_eq_left hle).symm

/-- While more is left than the window is long, the next one is twice as long. -/
theorem Exchange.doubled_next (h : here.Doubled x.policy.minTimeout i)
    (hleft : here.window.nanos < (budget.remaining now).nanos) :
    (x.next budget here now buffer s).Doubled x.policy.minTimeout (i + 1) := by
  unfold Standing.Doubled at h ⊢
  simp only [Exchange.next]
  rw [nanos_nextWindow, if_neg (Nat.not_le.mpr hleft), h, Nat.pow_succ, ← Nat.mul_assoc]
  omega

/-! ## 4. Windows that are what is left -/

/-- When no more is left than the window is long, the next deadline is the end of the budget. -/
theorem Exchange.tight_next_of_le (hstarted : budget.started ≤ now)
    (hleft : (budget.remaining now).nanos ≤ here.window.nanos)
    (hfresh : budget.isExhausted now = false) :
    (x.next budget here now buffer s).Tight budget where
  started_le := hstarted
  deadline_eq := by
    have hlt := Budget.isExhausted_eq_false_iff.mp hfresh
    simp only [Exchange.next]
    rw [nanos_nextWindow, if_pos hleft, Budget.nanos_remaining]
    unfold Instant at *
    omega

/-- **A window that is what is left never grows again.** -/
theorem Exchange.Retries.tight_of_fresh (ht : t.Forward)
    (hr : x.Retries t budget here attempts counts there)
    (h : budget.isExhausted here.now = false → here.Tight budget)
    (hfresh : budget.isExhausted there.now = false) : there.Tight budget := by
  have hstep := hr.invariant
    (P := fun there => budget.isExhausted there.now = false → there.Tight budget)
  refine hstep (fun {here} _ _ now _ _ fresh ha h hnext => ?_) h hfresh
  have hle : here.now ≤ now := Exchange.le_of_retry ht ha
  have htight := h fresh
  have hstarted := htight.started_le
  have hdeadline := htight.deadline_eq
  have hlt := Budget.isExhausted_eq_false_iff.mp hnext
  refine Exchange.tight_next_of_le (Nat.le_trans hstarted hle) ?_ hnext
  rw [Budget.nanos_remaining]
  unfold Instant at *
  omega

/-! ## 5. The switch -/

/-- Where fruitless attempts lead, if the first of them is known. -/
theorem Exchange.Retries.of_attempt
    (ha : x.attempt t here = (a, counts, .retry now buffer s)) {others : List Count}
    (hr : x.Retries t budget here attempts others there) :
    (attempts = [] ∧ there = here) ∨
      ∃ rest more, attempts = a :: rest ∧
        x.Retries t budget (x.next budget here now buffer s) rest more there := by
  cases hr with
  | refl => exact .inl ⟨rfl, rfl⟩
  | head _ ha' hrest =>
    rw [ha] at ha'
    cases ha'
    exact .inr ⟨_, _, rfl, hrest⟩

/-- No fruitless attempts follow one that is the last. -/
theorem Exchange.Retries.of_final {result : Except Error Bytes}
    (ha : x.attempt t here = (a, counts, .final result now s)) {others : List Count}
    (hr : x.Retries t budget here attempts others there) : attempts = [] ∧ there = here := by
  cases hr with
  | refl => exact ⟨rfl, rfl⟩
  | head _ ha' _ =>
    rw [ha] at ha'
    cases ha'

/-- From a standing after `i` doublings on, windows double up to the place `k` and are what is left
behind it. -/
def Exchange.SwitchesAt (x : Exchange) (t : Transport σ) (budget : Budget) (here : Standing σ)
    (i k : Nat) : Prop :=
  ∀ {attempts counts there}, x.Retries t budget here attempts counts there →
    budget.isExhausted there.now = false →
    (i + attempts.length ≤ k → there.Doubled x.policy.minTimeout (i + attempts.length)) ∧
      (k < i + attempts.length → there.Tight budget)

/-- The switch is here if no other attempt follows. -/
theorem Exchange.switchesAt_of_nil (h : here.Doubled x.policy.minTimeout i)
    (hnil : ∀ {attempts counts there}, x.Retries t budget here attempts counts there →
      attempts = [] ∧ there = here) : x.SwitchesAt t budget here i i := by
  intro attempts counts there hr _
  obtain ⟨rfl, rfl⟩ := hnil hr
  exact ⟨fun _ => h, fun hlt => absurd hlt (Nat.lt_irrefl i)⟩

/-- **There is one switch**, however many attempts are made. -/
theorem Exchange.exists_switch (ht : t.Forward) (hstarted : budget.started ≤ here.now)
    (hwindow : 0 < here.window.nanos) (h : here.Doubled x.policy.minTimeout i) :
    ∃ k, i ≤ k ∧ x.SwitchesAt t budget here i k := by
  -- The induction is on how much longer a window can be that is shorter than what is left.
  induction hn : budget.total.nanos - here.window.nanos using Nat.strongRecOn
    generalizing here i with
  | ind n ih =>
    rcases ha : x.attempt t here with ⟨a, counts, ⟨result, now, s⟩ | ⟨now, buffer, s⟩⟩
    · exact ⟨i, Nat.le_refl i, Exchange.switchesAt_of_nil h fun hr => hr.of_final ha⟩
    · have hle : here.now ≤ now := Exchange.le_of_retry ht ha
      have hstarted' : budget.started ≤ now := Nat.le_trans hstarted hle
      by_cases hleft : (budget.remaining now).nanos ≤ here.window.nanos
      · refine ⟨i, Nat.le_refl i, fun {attempts _ there} hr hfresh => ?_⟩
        rcases hr.of_attempt ha with ⟨rfl, rfl⟩ | ⟨rest, more, rfl, hrest⟩
        · exact ⟨fun _ => h, fun hlt => absurd hlt (Nat.lt_irrefl i)⟩
        · refine ⟨fun hi => absurd hi ?_, fun _ => hrest.tight_of_fresh ht ?_ hfresh⟩
          · rw [List.length_cons]
            omega
          · exact Exchange.tight_next_of_le hstarted' hleft
      · have hlonger : here.window.nanos < (budget.remaining now).nanos := Nat.not_le.mp hleft
        have hnext : (x.next budget here now buffer s).Doubled x.policy.minTimeout (i + 1) :=
          Exchange.doubled_next h hlonger
        have hgrown : here.window.nanos < (x.next budget here now buffer s).window.nanos := by
          have := (budget.remaining now).nanos_le
          simp only [Exchange.next]
          rw [nanos_nextWindow, if_neg hleft]
          omega
        have hroom : here.window.nanos < budget.total.nanos := by
          rw [Budget.nanos_remaining] at hlonger
          omega
        obtain ⟨k, hk, hswitch⟩ := ih _ (by omega) hstarted' (by omega) hnext rfl
        refine ⟨k, Nat.le_of_succ_le hk, fun {attempts _ there} hr hfresh => ?_⟩
        rcases hr.of_attempt ha with ⟨rfl, rfl⟩ | ⟨rest, more, rfl, hrest⟩
        · exact ⟨fun _ => h, fun hlt => absurd hlt (by simpa using Nat.le_of_succ_le hk)⟩
        · rw [List.length_cons, Nat.add_comm rest.length, ← Nat.add_assoc]
          exact hswitch hrest hfresh

/-! ## 6. Runs -/

/-- **Windows double, and then they are what is left.**  Up to some attempt each window is the
floor, doubled as often as there are attempts before it; every later deadline is the end of the
budget, so those windows never grow.  Every window is positive, and shorter than twice what is left
when its attempt begins.  A run that is over has made exactly the attempts of which this is said.

No deadline is taken to overflow the clock (`Instant`). -/
theorem Exchange.windows_double_then_shrink (ht : t.Forward)
    (hfloor : 0 < x.policy.minTimeout.nanos) (now : Instant) (s : σ) :
    (∀ limit run, x.run t limit now s = some run →
      run.attempts = x.attempts t limit now s) ∧
    ∃ k, ∀ limit i a, (x.attempts t limit now s)[i]? = some a →
      (i ≤ k → a.deadline = a.started + min (x.policy.minTimeout.nanos * 2 ^ i) longestNanos) ∧
      (k < i → a.deadline = now + (max x.timeout x.policy.minTimeout).nanos) ∧
      (k < i → ∀ j b, i ≤ j → (x.attempts t limit now s)[j]? = some b →
        b.deadline - b.started ≤ a.deadline - a.started) ∧
      a.started < a.deadline ∧
      a.deadline - a.started < 2 * ((x.budget now).remaining a.started).nanos := by
  have hfirst : ∃ k, 0 ≤ k ∧ x.SwitchesAt t (x.budget now) (x.first now s) 0 k :=
    Exchange.exists_switch ht (Nat.le_refl _) hfloor (x.doubled_first now s)
  obtain ⟨k, -, hswitch⟩ := hfirst
  have hdeadline : ∀ {limit i a}, (x.attempts t limit now s)[i]? = some a → k < i →
      a.deadline = now + (max x.timeout x.policy.minTimeout).nanos := by
    intro limit i a ha hi
    obtain ⟨attempts, counts, there, hr, hlength, hfresh, rfl⟩ :=
      Exchange.exists_retries_of_attemptsFrom_getElem? ha
    rw [(x.attempt_fst t there).2.2]
    exact ((hswitch hr hfresh).2 (by omega)).deadline_eq
  refine ⟨fun limit run h => (Exchange.attempts_of_run h).symm, k, fun limit i a ha => ?_⟩
  obtain ⟨attempts, counts, there, hr, hlength, hfresh, hattempt⟩ :=
    Exchange.exists_retries_of_attemptsFrom_getElem? ha
  obtain ⟨-, hstarted, hwait⟩ := x.attempt_fst t there
  rw [hattempt] at hstarted hwait
  have hbounded := hr.bounded hfloor hfresh
  refine ⟨fun hi => ?_, hdeadline ha, fun hi j b hij hb => ?_, ?_, ?_⟩
  · have hdoubled : there.Doubled x.policy.minTimeout (0 + attempts.length) :=
      (hswitch hr hfresh).1 (by omega)
    rw [Nat.zero_add, hlength] at hdoubled
    rw [hwait, hstarted, hdoubled]
  · have hearlier : a.started ≤ b.started := by
      rcases Nat.eq_or_lt_of_le hij with rfl | hlt
      · rw [ha] at hb
        cases hb
        exact Nat.le_refl _
      · obtain ⟨hi', rfl⟩ := List.getElem?_eq_some_iff.mp ha
        obtain ⟨hj, rfl⟩ := List.getElem?_eq_some_iff.mp hb
        exact List.pairwise_iff_getElem.mp (x.pairwise_started ht _ limit _) i j hi' hj hlt
    rw [hdeadline ha hi, hdeadline hb (Nat.lt_of_lt_of_le hi hij)]
    exact Nat.sub_le_sub_left hearlier _
  · rw [hwait, hstarted]
    exact Nat.lt_add_of_pos_right hbounded.window_pos
  · rw [hwait, hstarted]
    have := hbounded.window_lt
    unfold Instant at *
    omega

/-- A line to a peer whose first answer is no token, and that is silent afterwards. -/
def junkOnce : Line ScriptedPeer :=
  { peer := { token := { first := [.sends [⟨.ofMillis 20, .ok [7]⟩]] } } }

/-- The second window is doubled although the first was cut short, and the third is what is left. -/
theorem Exchange.windows_double_then_shrink_junkOnce :
    (∃ first second third,
      (tokenExchange ⟨1, 2, 3, 4⟩ (.ofMillis 155) singleCopies).attempts
        (Line.transport ScriptedPeer.react) 4 0 junkOnce = [first, second, third] ∧
      second.deadline = second.started + 70 * nanosPerMilli ∧
      third.deadline = third.started + 65 * nanosPerMilli) ∧
    ∀ limit i a, ((tokenExchange ⟨1, 2, 3, 4⟩ (.ofMillis 155) singleCopies).attempts
        (Line.transport ScriptedPeer.react) limit 0 junkOnce)[i]? = some a → 1 < i →
      a.deadline = 155 * nanosPerMilli := by
  have hforward : (Line.transport ScriptedPeer.react).Forward :=
    (Line.lawful_transport ScriptedPeer.react).toTimely.forward
  have hfloor : 0 < singleCopies.minTimeout.nanos := by decide +kernel
  have htimes : ((tokenExchange ⟨1, 2, 3, 4⟩ (.ofMillis 155) singleCopies).attempts
      (Line.transport ScriptedPeer.react) 4 0 junkOnce).map (fun a => (a.started, a.deadline)) =
        [(0, 35 * nanosPerMilli), (20 * nanosPerMilli, 90 * nanosPerMilli),
          (90 * nanosPerMilli, 155 * nanosPerMilli)] := by decide +kernel
  obtain ⟨-, k, hk⟩ := Exchange.windows_double_then_shrink
    (x := tokenExchange ⟨1, 2, 3, 4⟩ (.ofMillis 155) singleCopies) hforward hfloor 0 junkOnce
  obtain ⟨first, rest, hattempts, -, hrest⟩ := List.map_eq_cons_iff.mp htimes
  obtain ⟨second, rest, rfl, hsecond, hrest⟩ := List.map_eq_cons_iff.mp hrest
  obtain ⟨third, rest, rfl, hthird, hrest⟩ := List.map_eq_cons_iff.mp hrest
  obtain rfl := List.map_eq_nil_iff.mp hrest
  obtain ⟨hstarted₂, hdeadline₂⟩ := Prod.mk.inj hsecond
  obtain ⟨hstarted₃, hdeadline₃⟩ := Prod.mk.inj hthird
  -- The second deadline is not the end of the budget, and the third window is not doubled.
  have hlow : ¬ k < 1 := by
    intro hlt
    have hend := (hk 4 1 second (by rw [hattempts]; rfl)).2.1 hlt
    rw [hdeadline₂] at hend
    exact absurd hend (by decide +kernel)
  have hhigh : ¬ 2 ≤ k := by
    intro hle
    have hdoubled := (hk 4 2 third (by rw [hattempts]; rfl)).1 hle
    rw [hdeadline₃, hstarted₃] at hdoubled
    exact absurd hdoubled (by decide +kernel)
  refine ⟨⟨first, second, third, hattempts, ?_, ?_⟩, fun limit i a ha hi => ?_⟩
  · rw [hdeadline₂, hstarted₂]
    decide
  · rw [hdeadline₃, hstarted₃]
    decide
  · have hend := (hk limit i a ha).2.1 (by omega)
    rw [hend]
    decide +kernel

end ServerDiscovery
