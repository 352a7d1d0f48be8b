import ServerDiscovery.Proofs.Exchange.Pace

/-! # Junk in front of the answer

Copies of a request are answered one by one, and late answers to an earlier request are still on
their way; so what a run receives first is often not its answer.  Each such datagram costs an
attempt, a window and a larger burst.  It costs nothing else: if what stands in front of the answer
is brought in time, one datagram an attempt, then so is the answer.

What carries this through both regimes of the schedule is that windows are ample
(`Standing.Ample`): one that is as long as the floor is longer than the delay of a datagram, and one
that is all that is left ends when the budget does, which is after the answer.

Nothing is assumed of what stands behind the answer, nor of how sending or waiting adds to it.
-/

namespace ServerDiscovery

variable {σ : Type} {x : Exchange} {t : Transport σ} {budget : Budget} {here : Standing σ}
  {inbox : σ → List Bytes} {delay : Nat} {now : Instant} {s : σ} {first answer : Bytes}
  {rest junk : List Bytes}

/-! ## 1. Inboxes -/

/-- Datagrams are received in the order of an inbox, each after `delay`.  Sends complete, and
neither they nor waiting change the order of what is in the inbox. -/
structure Transport.Delivers (t : Transport σ) (inbox : σ → List Bytes) (delay : Nat) : Prop where
  complete : t.Complete
  inbox_send : ∀ s now datagram, inbox s <+: inbox (t.send s now datagram).2
  outcome : ∀ {s now deadline size first rest}, inbox s = first :: rest → now + delay < deadline →
    (t.receive s now deadline size).outcome = .ok (first.take size)
  now_eq : ∀ {s now deadline size first rest}, inbox s = first :: rest → now + delay < deadline →
    (t.receive s now deadline size).now = now + delay
  inbox_receive : ∀ {s now deadline size first rest}, inbox s = first :: rest →
    now + delay < deadline → rest <+: inbox (t.receive s now deadline size).state

/-- A burst leaves in the inbox what is there. -/
theorem Transport.Delivers.inbox_burst (ht : t.Delivers inbox delay) (now : Instant)
    (datagram : Bytes) (copies : Nat) (s : σ) :
    inbox s <+: inbox (t.burst now datagram copies s).state := by
  induction copies generalizing s with
  | zero => exact List.prefix_rfl
  | succ copies ih =>
    have houtcome := ht.complete s now datagram
    have hsend := ht.inbox_send s now datagram
    rcases hs : t.send s now datagram with ⟨outcome, s'⟩
    rw [hs] at houtcome hsend
    subst houtcome
    simp only [Transport.burst, hs, if_true]
    exact hsend.trans (ih s')

/-- What the receive buffer holds of a datagram. -/
def Exchange.held (x : Exchange) (datagram : Bytes) : Bytes :=
  datagram.take x.policy.maxResponseSize.toNat

/-- An attempt that has the time receives the datagram at the front. -/
theorem Transport.Delivers.wait (ht : t.Delivers inbox delay)
    (hinbox : first :: rest <+: inbox here.state) (htime : delay < here.window.nanos) :
    (x.wait t here).outcome = .ok (x.held first) ∧ (x.wait t here).now = here.now + delay ∧
      rest <+: inbox (x.wait t here).state := by
  have hburst := hinbox.trans
    (ht.inbox_burst here.now x.request (x.policy.copies here.factor) here.state)
  obtain ⟨others, hothers, hrest⟩ := List.cons_prefix_iff.mp hburst
  have hdeadline : here.now + delay < here.now + here.window.nanos :=
    Nat.add_lt_add_left htime here.now
  exact ⟨ht.outcome hothers hdeadline, ht.now_eq hothers hdeadline,
    hrest.trans (ht.inbox_receive hothers hdeadline)⟩

/-! ## 2. Junk -/

/-- A delay that is shorter than the floor and than what is left is shorter than the window. -/
theorem Standing.Ample.delay_lt {floor : Duration} (h : here.Ample floor budget)
    (hfloor : delay < floor.nanos)
    (hleft : here.now + delay < budget.started + budget.total.nanos) :
    delay < here.window.nanos := by
  have hwindow := h.window
  unfold Instant at *
  omega

theorem Standing.Ample.fresh {floor : Duration} (h : here.Ample floor budget)
    (hleft : here.now < budget.started + budget.total.nanos) :
    budget.isExhausted here.now = false := by
  have hstarted := h.started_le
  rw [Budget.isExhausted_eq_false_iff]
  unfold Instant at *
  omega

/-- Sending counts no mismatch. -/
theorem count_mismatched_sentCounts (copies size : Nat) :
    (sentCounts copies size).count .responseMismatched = 0 := by
  rw [List.count_eq_zero]
  simp [sentCounts, Count.sent]

theorem count_mismatched_received (size : Nat) :
    (Count.received size).count .responseMismatched = 0 := rfl

/-- **Each piece of junk costs an attempt**, and the time that it takes to arrive. -/
theorem Transport.Delivers.exists_retries (ht : t.Delivers inbox delay)
    (hfloor : delay < x.policy.minTimeout.nanos) (hjunk : ∀ d ∈ junk, ¬ x.Accepts (x.held d))
    (h : here.Ample x.policy.minTimeout budget) (hinbox : junk ++ rest <+: inbox here.state)
    (htime : here.now + (junk.length + 1) * delay < budget.started + budget.total.nanos) :
    ∃ attempts counts there, x.Retries t budget here attempts counts there ∧
      attempts.length = junk.length ∧ counts.count .responseMismatched = junk.length ∧
      there.now = here.now + junk.length * delay ∧
      there.Ample x.policy.minTimeout budget ∧ rest <+: inbox there.state := by
  induction junk generalizing here with
  | nil =>
    refine ⟨[], [], here, .refl here, rfl, rfl, ?_, h, hinbox⟩
    rw [List.length_nil, Nat.zero_mul]
    rfl
  | cons d junk ih =>
    obtain ⟨hd, hothers⟩ := List.forall_mem_cons.mp hjunk
    rw [List.length_cons, Nat.succ_mul, Nat.succ_mul] at htime
    rw [Nat.succ_mul] at ih
    have hfresh : budget.isExhausted here.now = false := h.fresh (by unfold Instant at *; omega)
    obtain ⟨houtcome, hnow, hrest⟩ := ht.wait (x := x) hinbox
      (h.delay_lt hfloor (by unfold Instant at *; omega))
    have hattempt := Exchange.attempt_of_rejected ht.complete houtcome hd
    rw [hnow] at hattempt
    have hlater : budget.isExhausted (here.now + delay) = false := by
      have hstarted := h.started_le
      rw [Budget.isExhausted_eq_false_iff]
      unfold Instant at *
      omega
    have hnext : (x.next budget here (here.now + delay) (overwrite here.buffer (x.held d))
        (x.wait t here).state).Ample x.policy.minTimeout budget :=
      Exchange.ample_next h (Nat.le_add_right ..) hlater
    have hleft : here.now + delay + (junk.length * delay + delay) <
        budget.started + budget.total.nanos := by
      unfold Instant at *
      omega
    obtain ⟨attempts, counts, there, hr, hlength, hcount, hthere, hample, hbehind⟩ :=
      ih hothers hnext hrest hleft
    refine ⟨_, _, there, .head hfresh hattempt hr, congrArg (· + 1) hlength, ?_, ?_, hample,
      hbehind⟩
    · rw [List.count_append, List.count_append, List.count_append, count_mismatched_sentCounts,
        count_mismatched_received, hcount, List.length_cons]
      exact Nat.add_comm ..
    · simp only [Exchange.next] at hthere
      rw [hthere, List.length_cons, Nat.succ_mul]
      unfold Instant at *
      omega

/-! ## 3. Runs -/

/-- **Junk only delays the answer.**  If the inbox holds datagrams that are rejected, then one that
is accepted, and then anything, each datagram arrives sooner than the floor and all of them within
the budget, then the run has that datagram as its result: after one attempt for each piece of junk,
counted as a mismatch, and one for the answer, each of which takes the delay of a datagram.

The timeout may be as long as a `Duration` can be.  No deadline is taken to overflow the clock, as a
host's would that lies beyond about `2 ^ 63` seconds (`Instant`). -/
theorem Exchange.junk_only_delays (ht : t.Delivers inbox delay)
    (hfloor : delay < x.policy.minTimeout.nanos) (hinbox : junk ++ [answer] <+: inbox s)
    (hjunk : ∀ d ∈ junk, ¬ x.Accepts (x.held d)) (hanswer : x.Accepts (x.held answer))
    (htime : (junk.length + 1) * delay < (max x.timeout x.policy.minTimeout).nanos)
    (now : Instant) :
    ∃ run, (∀ limit, junk.length < limit → x.run t limit now s = some run) ∧
      run.result = .ok (x.held answer) ∧
      (answer.length ≤ x.policy.maxResponseSize.toNat → run.result = .ok answer) ∧
      run.attempts.length = junk.length + 1 ∧
      run.counts.count .responseMismatched = junk.length ∧
      run.now = now + (junk.length + 1) * delay := by
  have hleft : now + (junk.length + 1) * delay <
      (x.budget now).started + (x.budget now).total.nanos := Nat.add_lt_add_left htime now
  obtain ⟨attempts, counts, there, hr, hlength, hcount, hthere, hample, hbehind⟩ :=
    ht.exists_retries hfloor hjunk (x.ample_first now s) hinbox hleft
  replace hthere : there.now = now + junk.length * delay := hthere
  rw [Nat.succ_mul] at hleft
  have hfresh : (x.budget now).isExhausted there.now = false :=
    hample.fresh (by unfold Instant at *; omega)
  obtain ⟨houtcome, hnow, -⟩ := ht.wait (x := x) hbehind
    (hample.delay_lt hfloor (by unfold Instant at *; omega))
  have hattempt := Exchange.attempt_of_accepted ht.complete houtcome hanswer
  refine ⟨_, fun limit hlimit => Exchange.run_eq_some_iff.mpr
    ⟨attempts, counts, there, _, hr, hlength ▸ hlimit, .final hfresh hattempt, rfl⟩, rfl, ?_, ?_,
    ?_, ?_⟩
  · intro hfits
    exact congrArg Except.ok (List.take_of_length_le hfits)
  · simp [Run.after, hlength]
  · simp only [Run.after]
    rw [List.cons_append, List.count_cons_of_ne (by decide), List.count_append, List.count_append,
      List.count_append, count_mismatched_sentCounts, count_mismatched_received, hcount]
    rfl
  · simp only [Run.after]
    rw [hnow, hthere, Nat.succ_mul]
    unfold Instant
    omega

/-- A transport that brings the datagrams of a list, each after twenty milliseconds if that is in
time. -/
def backlog : Transport (List Bytes) where
  send := fun s _ datagram => (.ok datagram.length, s)
  receive := fun s now deadline size =>
    match s with
    | first :: rest =>
      if now + 20 * nanosPerMilli ≤ deadline then
        ⟨.ok (first.take size), now + 20 * nanosPerMilli, rest⟩
      else ⟨.error .silence, deadline, s⟩
    | [] => ⟨.error .silence, deadline, s⟩

theorem delivers_backlog : backlog.Delivers id (20 * nanosPerMilli) where
  complete _ _ _ := rfl
  inbox_send _ _ _ := List.prefix_rfl
  outcome := by
    rintro s now deadline size first rest rfl h
    simp [backlog, Nat.le_of_lt h]
  now_eq := by
    rintro s now deadline size first rest rfl h
    simp [backlog, Nat.le_of_lt h]
  inbox_receive := by
    rintro s now deadline size first rest rfl h
    simp [backlog, Nat.le_of_lt h]

/-- Three datagrams that are no token, one of them longer than a token and one empty, then a token,
and then another one. -/
def crowdedInbox : List Bytes :=
  [[7], List.replicate 16 7, [], [4, 0, 0, 1, 2, 3, 4, 5, 9, 9, 9, 9],
    [4, 0, 0, 1, 2, 3, 4, 5, 8, 8, 8, 8]]

/-- The windows double once and are what is left of ninety milliseconds afterwards; the fourth
datagram arrives ten milliseconds before their end. -/
theorem Exchange.junk_only_delays_crowdedInbox :
    ∃ run, (∀ limit, 3 < limit →
        (tokenExchange ⟨1, 2, 3, 4⟩ (.ofMillis 90) singleCopies).run backlog limit 0 crowdedInbox =
          some run) ∧
      run.result = .ok [4, 0, 0, 1, 2, 3, 4, 5, 9, 9, 9, 9] ∧ run.attempts.length = 4 ∧
      run.counts.count .responseMismatched = 3 ∧ run.now = 80 * nanosPerMilli := by
  let x := tokenExchange ⟨1, 2, 3, 4⟩ (.ofMillis 90) singleCopies
  have hrejected : ∀ d ∈ crowdedInbox.take 3, ¬ x.Accepts (x.held d) := by
    unfold Exchange.Accepts
    decide +kernel
  have haccepted : x.Accepts (x.held [4, 0, 0, 1, 2, 3, 4, 5, 9, 9, 9, 9]) := by
    unfold Exchange.Accepts
    decide +kernel
  have htime : ((crowdedInbox.take 3).length + 1) * (20 * nanosPerMilli) <
      (max x.timeout x.policy.minTimeout).nanos := by decide +kernel
  have hinbox : crowdedInbox.take 3 ++ [[4, 0, 0, 1, 2, 3, 4, 5, 9, 9, 9, 9]] <+:
      id crowdedInbox := by decide
  obtain ⟨run, hrun, -, hresult, hlength, hcount, hnow⟩ := Exchange.junk_only_delays
    delivers_backlog (by decide +kernel) hinbox hrejected haccepted htime 0
  exact ⟨run, hrun, hresult (by decide), hlength, hcount, hnow.trans (by decide)⟩

end ServerDiscovery
