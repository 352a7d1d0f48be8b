import ServerDiscovery.Proofs.Exchange.Calls

/-! # What an attempt can do

Everything that is proved about runs rests on two inversions.  `Exchange.Attempted` lists the three
things that an attempt can be: *broken* by a failed send, *answered*, or *fruitless*.  Only the last
is made again.  `Exchange.Retries` is a sequence of fruitless attempts, and `Exchange.Ends` what the
loop does where such a sequence stops for good: it is out of time, or the next attempt is the last.

`Exchange.loop_eq_some_iff` and `Exchange.loop_eq_none_iff` say that these relations describe the
loop, so a property of all runs is proved by an induction on `Exchange.Retries` and a case split.
-/

namespace ServerDiscovery

variable {σ : Type}

/-! ## 1. Bursts -/

/-- A burst sends all its copies unless one of them fails. -/
theorem Transport.delivered_burst_of_none {t : Transport σ} {now : Instant} {datagram : Bytes}
    {copies : Nat} {s : σ} (h : (t.burst now datagram copies s).failure = none) :
    (t.burst now datagram copies s).delivered = copies := by
  induction copies generalizing s with
  | zero => rfl
  | succ copies ih =>
    rcases hs : t.send s now datagram with ⟨e | written, s'⟩
    · simp [Transport.burst, hs] at h
    · by_cases hw : written = datagram.length
      · simp only [Transport.burst, hs, if_pos hw] at h ⊢
        rw [ih h]
      · simp [Transport.burst, hs, hw] at h

/-- A failed send did not report the whole datagram, and it was one of the copies. -/
theorem Transport.failure_burst {t : Transport σ} {now : Instant} {datagram : Bytes}
    {copies : Nat} {s : σ} {f : SendFailure}
    (h : (t.burst now datagram copies s).failure = some f) :
    f.outcome ≠ .ok datagram.length ∧ (t.burst now datagram copies s).delivered < copies := by
  induction copies generalizing s with
  | zero => simp [Transport.burst] at h
  | succ copies ih =>
    rcases hs : t.send s now datagram with ⟨e | written, s'⟩
    · simp only [Transport.burst, hs, Option.some.injEq] at h ⊢
      subst h
      exact ⟨by simp [SendFailure.outcome], Nat.succ_pos copies⟩
    · by_cases hw : written = datagram.length
      · simp only [Transport.burst, hs, if_pos hw] at h ⊢
        obtain ⟨houtcome, hlt⟩ := ih h
        exact ⟨houtcome, Nat.succ_lt_succ hlt⟩
      · simp only [Transport.burst, hs, if_neg hw, Option.some.injEq] at h ⊢
        subst h
        exact ⟨by simpa [SendFailure.outcome] using hw, Nat.succ_pos copies⟩

/-! ## 2. Attempts -/

/-- The datagram is taken for the response. -/
def Exchange.Accepts (x : Exchange) (datagram : Bytes) : Prop := x.accept datagram = .ok ()

/-- The record of an attempt at `here`. -/
def Exchange.record (x : Exchange) (here : Standing σ) (delivered : Nat)
    (failure : Option SendFailure) (received : Option (Except ReceiveFailure Bytes)) : Attempt :=
  { request := x.request, started := here.now, deadline := here.now + here.window.nanos, delivered,
    failure, received }

/-- What an attempt at `here` begins with: its deadline and `delivered` whole sends. -/
def Exchange.opening (x : Exchange) (here : Standing σ) (delivered : Nat) : List Call :=
  .setDeadline (here.now + here.window.nanos)
    :: List.replicate delivered (.send x.request (.ok x.request.length))

theorem Exchange.calls_record_of_failure (x : Exchange) (here : Standing σ) (delivered : Nat)
    (failure : SendFailure) :
    (x.record here delivered (some failure) none).calls =
      x.opening here delivered ++ [.send x.request failure.outcome] := by
  simp [Exchange.record, Exchange.opening, Attempt.calls, burstCalls]

theorem Exchange.calls_record_of_reception (x : Exchange) (here : Standing σ) (delivered : Nat)
    (outcome : Except ReceiveFailure Bytes) :
    (x.record here delivered none (some outcome)).calls =
      x.opening here delivered ++ [.receive outcome] := by
  simp [Exchange.record, Exchange.opening, Attempt.calls, burstCalls]

/-- What comes of waiting at `here` from the state `s` on. -/
def Exchange.reception (x : Exchange) (t : Transport σ) (here : Standing σ) (s : σ) :
    Reception σ :=
  t.receive s here.now (here.now + here.window.nanos) x.policy.maxResponseSize.toNat

/-- What an attempt at `here` can be. -/
inductive Exchange.Attempted (x : Exchange) (t : Transport σ) (here : Standing σ) :
    Attempt → List Count → AttemptEnd σ → Prop
  /-- A send fails. -/
  | broken {delivered : Nat} {failure : SendFailure} {s : σ}
      (lt : delivered < x.policy.copies here.factor)
      (short : failure.outcome ≠ .ok x.request.length) :
      Attempted x t here (x.record here delivered (some failure) none)
        (sentCounts delivered x.request.length ++ [.exchangeFailed])
        (.final (.error failure.toError) here.now s)
  /-- A datagram is accepted. -/
  | answered {s : σ} {datagram : Bytes} (outcome : (x.reception t here s).outcome = .ok datagram)
      (accepted : x.Accepts datagram) :
      Attempted x t here
        (x.record here (x.policy.copies here.factor) none (some (.ok datagram)))
        (sentCounts (x.policy.copies here.factor) x.request.length
          ++ Count.received datagram.length ++ [.exchangeSucceeded])
        (.final (.ok datagram) (x.reception t here s).now (x.reception t here s).state)
  /-- A datagram is rejected. -/
  | rejected {s : σ} {datagram : Bytes} (outcome : (x.reception t here s).outcome = .ok datagram)
      (rejected : ¬ x.Accepts datagram) :
      Attempted x t here
        (x.record here (x.policy.copies here.factor) none (some (.ok datagram)))
        (sentCounts (x.policy.copies here.factor) x.request.length
          ++ Count.received datagram.length ++ [.responseMismatched])
        (.retry (x.reception t here s).now (overwrite here.buffer datagram)
          (x.reception t here s).state)
  /-- No datagram is received. -/
  | silent {s : σ} {failure : ReceiveFailure}
      (outcome : (x.reception t here s).outcome = .error failure) :
      Attempted x t here
        (x.record here (x.policy.copies here.factor) none (some (.error failure)))
        (sentCounts (x.policy.copies here.factor) x.request.length)
        (.retry (x.reception t here s).now here.buffer (x.reception t here s).state)

/-- **An attempt is broken, answered, or fruitless.** -/
theorem Exchange.attempted (x : Exchange) (t : Transport σ) (here : Standing σ) :
    x.Attempted t here (x.attempt t here).1 (x.attempt t here).2.1 (x.attempt t here).2.2 := by
  have hnone := @Transport.delivered_burst_of_none _ t here.now x.request
    (x.policy.copies here.factor) here.state
  have hsome := @Transport.failure_burst _ t here.now x.request
    (x.policy.copies here.factor) here.state
  unfold Exchange.attempt
  rcases hb : t.burst here.now x.request (x.policy.copies here.factor) here.state with
    ⟨delivered, _ | failure, s⟩
  · obtain rfl : delivered = x.policy.copies here.factor := by simpa [hb] using hnone
    have ho : t.receive s here.now (here.now + here.window.nanos) x.policy.maxResponseSize.toNat =
        x.reception t here s := rfl
    simp only [ho, take_overwrite]
    split
    · next e outcome =>
      rw [outcome]
      exact .silent outcome
    · next datagram outcome =>
      rw [outcome]
      split
      · next accepted => exact .answered outcome accepted
      · next e rejected => exact .rejected outcome (by simp [Exchange.Accepts, rejected])
  · obtain ⟨short, lt⟩ := hsome (f := failure) (by rw [hb])
    rw [hb] at lt
    exact .broken lt short

theorem Exchange.attempted_of_eq {x : Exchange} {t : Transport σ} {here : Standing σ} {a : Attempt}
    {counts : List Count} {e : AttemptEnd σ} (h : x.attempt t here = (a, counts, e)) :
    x.Attempted t here a counts e := by
  have := x.attempted t here
  rwa [h] at this

/-! ## 3. Attempts whose sends complete -/

/-- Every send goes out whole. -/
def Transport.Complete (t : Transport σ) : Prop :=
  ∀ s now datagram, (t.send s now datagram).1 = .ok datagram.length

/-- No burst fails if no send does. -/
theorem Transport.Complete.failure_burst {t : Transport σ} (ht : t.Complete) (now : Instant)
    (datagram : Bytes) (copies : Nat) (s : σ) :
    (t.burst now datagram copies s).failure = none := by
  induction copies generalizing s with
  | zero => rfl
  | succ copies ih =>
    have houtcome := ht s now datagram
    rcases hs : t.send s now datagram with ⟨outcome, s'⟩
    rw [hs] at houtcome
    subst houtcome
    simp only [Transport.burst, hs, if_true]
    exact ih s'

/-- What comes of waiting at `here` once the burst is sent. -/
def Exchange.wait (x : Exchange) (t : Transport σ) (here : Standing σ) : Reception σ :=
  x.reception t here
    (t.burst here.now x.request (x.policy.copies here.factor) here.state).state

section Complete

variable {x : Exchange} {t : Transport σ} {here : Standing σ} {datagram : Bytes}

/-- If the sends complete, an attempt is what comes of its wait. -/
theorem Exchange.attempt_of_complete (ht : t.Complete) :
    x.attempt t here =
      (x.record here (x.policy.copies here.factor) none (some (x.wait t here).outcome),
        match (x.wait t here).outcome with
        | .error _ =>
          (sentCounts (x.policy.copies here.factor) x.request.length,
            .retry (x.wait t here).now here.buffer (x.wait t here).state)
        | .ok datagram =>
          match x.accept datagram with
          | .ok () =>
            (sentCounts (x.policy.copies here.factor) x.request.length
                ++ Count.received datagram.length ++ [.exchangeSucceeded],
              .final (.ok datagram) (x.wait t here).now (x.wait t here).state)
          | .error _ =>
            (sentCounts (x.policy.copies here.factor) x.request.length
                ++ Count.received datagram.length ++ [.responseMismatched],
              .retry (x.wait t here).now (overwrite here.buffer datagram)
                (x.wait t here).state)) := by
  have hnone := ht.failure_burst here.now x.request (x.policy.copies here.factor) here.state
  have hall := Transport.delivered_burst_of_none hnone
  unfold Exchange.attempt Exchange.wait Exchange.reception
  rcases hb : t.burst here.now x.request (x.policy.copies here.factor) here.state with
    ⟨delivered, failure, s⟩
  obtain rfl : failure = none := by rwa [hb] at hnone
  obtain rfl : delivered = x.policy.copies here.factor := by rwa [hb] at hall
  simp only [take_overwrite]
  rcases t.receive s here.now (here.now + here.window.nanos) x.policy.maxResponseSize.toNat with
    ⟨failure | datagram, now, state⟩
  · rfl
  · cases h : x.accept datagram <;> simp [h, Exchange.record]

theorem Exchange.attempt_of_silent (ht : t.Complete) {failure : ReceiveFailure}
    (houtcome : (x.wait t here).outcome = .error failure) :
    x.attempt t here =
      (x.record here (x.policy.copies here.factor) none (some (.error failure)),
        sentCounts (x.policy.copies here.factor) x.request.length,
        .retry (x.wait t here).now here.buffer (x.wait t here).state) := by
  rw [Exchange.attempt_of_complete ht, houtcome]

theorem Exchange.attempt_of_rejected (ht : t.Complete)
    (houtcome : (x.wait t here).outcome = .ok datagram) (hrejected : ¬ x.Accepts datagram) :
    x.attempt t here =
      (x.record here (x.policy.copies here.factor) none (some (.ok datagram)),
        sentCounts (x.policy.copies here.factor) x.request.length
          ++ Count.received datagram.length ++ [.responseMismatched],
        .retry (x.wait t here).now (overwrite here.buffer datagram) (x.wait t here).state) := by
  rw [Exchange.attempt_of_complete ht, houtcome]
  cases h : x.accept datagram with
  | ok _ => exact absurd h hrejected
  | error e => simp [h]

theorem Exchange.attempt_of_accepted (ht : t.Complete)
    (houtcome : (x.wait t here).outcome = .ok datagram) (haccepted : x.Accepts datagram) :
    x.attempt t here =
      (x.record here (x.policy.copies here.factor) none (some (.ok datagram)),
        sentCounts (x.policy.copies here.factor) x.request.length
          ++ Count.received datagram.length ++ [.exchangeSucceeded],
        .final (.ok datagram) (x.wait t here).now (x.wait t here).state) := by
  have h : x.accept datagram = .ok () := haccepted
  rw [Exchange.attempt_of_complete ht, houtcome]
  simp [h]

end Complete

/-! ## 4. Sequences of fruitless attempts -/

/-- From `here` on the given attempts are made, none of them the last, and they lead to `there`. -/
inductive Exchange.Retries (x : Exchange) (t : Transport σ) (budget : Budget) :
    Standing σ → List Attempt → List Count → Standing σ → Prop
  | refl (here : Standing σ) : Retries x t budget here [] [] here
  | head {here there : Standing σ} {a : Attempt} {now : Instant} {buffer : Bytes} {s : σ}
      {attempts : List Attempt} {counts others : List Count}
      (fresh : budget.isExhausted here.now = false)
      (attempt : x.attempt t here = (a, counts, .retry now buffer s))
      (rest : Retries x t budget (x.next budget here now buffer s) attempts others there) :
      Retries x t budget here (a :: attempts) (counts ++ others) there

/-- What every fruitless attempt preserves holds wherever they lead. -/
theorem Exchange.Retries.invariant {x : Exchange} {t : Transport σ} {budget : Budget}
    {P : Standing σ → Prop}
    (step : ∀ {here : Standing σ} {a : Attempt} {counts : List Count} {now : Instant}
      {buffer : Bytes} {s : σ}, budget.isExhausted here.now = false →
      x.attempt t here = (a, counts, .retry now buffer s) → P here →
      P (x.next budget here now buffer s))
    {here there : Standing σ} {attempts : List Attempt} {counts : List Count}
    (hr : x.Retries t budget here attempts counts there) (h : P here) : P there := by
  induction hr with
  | refl here => exact h
  | head fresh ha _ ih => exact ih (step fresh ha h)

/-- There was time at the beginning of fruitless attempts if there is time behind them. -/
theorem Exchange.Retries.fresh {x : Exchange} {t : Transport σ} {budget : Budget}
    {here there : Standing σ} {attempts : List Attempt} {counts : List Count}
    (hr : x.Retries t budget here attempts counts there)
    (h : budget.isExhausted there.now = false) : budget.isExhausted here.now = false := by
  cases hr with
  | refl => exact h
  | head fresh _ _ => exact fresh

/-- What the loop does at `there`, if it is over after one more attempt at most. -/
inductive Exchange.Ends (x : Exchange) (t : Transport σ) (budget : Budget) (there : Standing σ) :
    Run σ → Prop
  /-- There is no time for an attempt. -/
  | spent (exhausted : budget.isExhausted there.now = true) :
      Ends x t budget there
        { result := .error .timeout, attempts := [], counts := [.exchangeTimedOut],
          now := there.now, state := there.state }
  /-- The attempt is the last one. -/
  | final {a : Attempt} {counts : List Count} {result : Except Error Bytes} {now : Instant} {s : σ}
      (fresh : budget.isExhausted there.now = false)
      (attempt : x.attempt t there = (a, counts, .final result now s)) :
      Ends x t budget there { result, attempts := [a], counts, now, state := s }

/-- The run `last`, after other attempts. -/
def Run.after (attempts : List Attempt) (counts : List Count) (last : Run σ) : Run σ :=
  { last with attempts := attempts ++ last.attempts, counts := counts ++ last.counts }

section Loop

variable {x : Exchange} {t : Transport σ} {budget : Budget} {limit : Nat} {here : Standing σ}
  {a : Attempt} {counts : List Count} {result : Except Error Bytes} {now : Instant}
  {buffer : Bytes} {s : σ} {run : Run σ}

theorem Exchange.loop_of_exhausted (hx : budget.isExhausted here.now = true) :
    x.loop t budget (limit + 1) here =
      some { result := .error .timeout, attempts := [], counts := [.exchangeTimedOut],
             now := here.now, state := here.state } := by
  simp [Exchange.loop, hx]

theorem Exchange.loop_of_final (hx : budget.isExhausted here.now = false)
    (ha : x.attempt t here = (a, counts, .final result now s)) :
    x.loop t budget (limit + 1) here =
      some { result, attempts := [a], counts, now, state := s } := by
  simp [Exchange.loop, hx, ha]

theorem Exchange.loop_of_retry (hx : budget.isExhausted here.now = false)
    (ha : x.attempt t here = (a, counts, .retry now buffer s)) :
    x.loop t budget (limit + 1) here =
      (x.loop t budget limit (x.next budget here now buffer s)).map (Run.after [a] counts) := by
  simp only [Exchange.loop, hx, ha]
  rfl

/-- **What the loop does when it is over**: fruitless attempts, fewer than the limit, and an end. -/
theorem Exchange.loop_eq_some_iff :
    x.loop t budget limit here = some run ↔
      ∃ attempts counts there last, x.Retries t budget here attempts counts there ∧
        attempts.length < limit ∧ x.Ends t budget there last ∧
          run = last.after attempts counts := by
  constructor
  · intro h
    induction limit generalizing here run with
    | zero => cases h
    | succ limit ih =>
      cases hx : budget.isExhausted here.now with
      | true =>
        rw [Exchange.loop_of_exhausted hx] at h
        cases h
        exact ⟨[], [], here, _, .refl here, Nat.succ_pos limit, .spent hx, rfl⟩
      | false =>
        rcases ha : x.attempt t here with ⟨a, counts, ⟨result, now, s⟩ | ⟨now, buffer, s⟩⟩
        · rw [Exchange.loop_of_final hx ha] at h
          cases h
          exact ⟨[], [], here, _, .refl here, Nat.succ_pos limit, .final hx ha, rfl⟩
        · rw [Exchange.loop_of_retry hx ha] at h
          obtain ⟨rest, hrest, rfl⟩ := Option.map_eq_some_iff.mp h
          obtain ⟨attempts, others, there, last, hr, hlt, he, rfl⟩ := ih hrest
          exact ⟨a :: attempts, counts ++ others, there, last, .head hx ha hr,
            Nat.succ_lt_succ hlt, he, by simp [Run.after]⟩
  · rintro ⟨attempts, counts, there, last, hr, hlt, he, rfl⟩
    induction hr generalizing limit with
    | refl here =>
      obtain ⟨limit, rfl⟩ := Nat.exists_eq_add_one_of_ne_zero (Nat.ne_zero_of_lt hlt)
      cases he with
      | spent hx => exact Exchange.loop_of_exhausted hx
      | final hx ha => exact Exchange.loop_of_final hx ha
    | head hx ha _ ih =>
      obtain ⟨limit, rfl⟩ := Nat.exists_eq_add_one_of_ne_zero (Nat.ne_zero_of_lt hlt)
      rw [Exchange.loop_of_retry hx ha, ih (Nat.lt_of_succ_lt_succ hlt) he]
      simp [Run.after]

/-- **What the loop does when it is not over**: fruitless attempts, as many as the limit. -/
theorem Exchange.loop_eq_none_iff :
    x.loop t budget limit here = none ↔
      ∃ attempts counts there, x.Retries t budget here attempts counts there ∧
        attempts.length = limit := by
  constructor
  · intro h
    induction limit generalizing here with
    | zero => exact ⟨[], [], here, .refl here, rfl⟩
    | succ limit ih =>
      cases hx : budget.isExhausted here.now with
      | true =>
        rw [Exchange.loop_of_exhausted hx] at h
        cases h
      | false =>
        rcases ha : x.attempt t here with ⟨a, counts, ⟨result, now, s⟩ | ⟨now, buffer, s⟩⟩
        · rw [Exchange.loop_of_final hx ha] at h
          cases h
        · rw [Exchange.loop_of_retry hx ha, Option.map_eq_none_iff] at h
          obtain ⟨attempts, others, there, hr, hlen⟩ := ih h
          exact ⟨a :: attempts, counts ++ others, there, .head hx ha hr, congrArg (· + 1) hlen⟩
  · rintro ⟨attempts, counts, there, hr, rfl⟩
    induction hr with
    | refl here => rfl
    | head hx ha _ ih => rw [List.length_cons, Exchange.loop_of_retry hx ha, ih, Option.map_none]

end Loop

/-! ## 5. Runs -/

/-- The attempts of the loop from `here` on, `limit` of them at most, whether or not it is over
after them. -/
def Exchange.attemptsFrom (x : Exchange) (t : Transport σ) (budget : Budget) :
    (limit : Nat) → Standing σ → List Attempt
  | 0, _ => []
  | limit + 1, here =>
    if budget.isExhausted here.now then []
    else
      match x.attempt t here with
      | (a, _, .final ..) => [a]
      | (a, _, .retry now buffer s) =>
        a :: x.attemptsFrom t budget limit (x.next budget here now buffer s)

/-- The attempts of a run, `limit` of them at most, whether or not it is over after them. -/
def Exchange.attempts (x : Exchange) (t : Transport σ) (limit : Nat) (now : Instant) (s : σ) :
    List Attempt :=
  x.attemptsFrom t (x.budget now) limit (x.first now s)

section Runs

variable {x : Exchange} {t : Transport σ} {budget : Budget} {limit : Nat} {here there : Standing σ}
  {attempts : List Attempt} {counts : List Count} {now : Instant} {s : σ} {run last : Run σ}

theorem Exchange.Retries.attemptsFrom (hr : x.Retries t budget here attempts counts there)
    (more : Nat) :
    x.attemptsFrom t budget (attempts.length + more) here =
      attempts ++ x.attemptsFrom t budget more there := by
  induction hr with
  | refl here => simp
  | head hx ha _ ih =>
    rw [List.length_cons, Nat.add_right_comm, Exchange.attemptsFrom, hx, ha]
    simpa using ih

theorem Exchange.Ends.attemptsFrom (he : x.Ends t budget there last) (more : Nat) :
    x.attemptsFrom t budget (more + 1) there = last.attempts := by
  cases he with
  | spent hx => simp [Exchange.attemptsFrom, hx]
  | final hx ha => simp [Exchange.attemptsFrom, hx, ha]

/-- The attempt at place `i` is made at a standing that `i` fruitless attempts lead to, while there
is time. -/
theorem Exchange.exists_retries_of_attemptsFrom_getElem? {i : Nat} {a : Attempt}
    (h : (x.attemptsFrom t budget limit here)[i]? = some a) :
    ∃ attempts counts there, x.Retries t budget here attempts counts there ∧
      attempts.length = i ∧ budget.isExhausted there.now = false ∧ (x.attempt t there).1 = a := by
  induction limit generalizing here i with
  | zero => simp [Exchange.attemptsFrom] at h
  | succ limit ih =>
    cases hx : budget.isExhausted here.now with
    | true => simp [Exchange.attemptsFrom, hx] at h
    | false =>
      rcases ha : x.attempt t here with ⟨b, counts, ⟨result, now, s⟩ | ⟨now, buffer, s⟩⟩
      · simp only [Exchange.attemptsFrom, hx, ha, Bool.false_eq_true, if_false] at h
        cases i with
        | zero => exact ⟨[], [], here, .refl here, rfl, hx, by rw [ha]; simpa using h⟩
        | succ i => simp at h
      · simp only [Exchange.attemptsFrom, hx, ha, Bool.false_eq_true, if_false] at h
        cases i with
        | zero => exact ⟨[], [], here, .refl here, rfl, hx, by rw [ha]; simpa using h⟩
        | succ i =>
          rw [List.getElem?_cons_succ] at h
          obtain ⟨attempts, others, there, hr, hlength, hfresh, hb⟩ := ih h
          exact ⟨b :: attempts, counts ++ others, there, .head hx ha hr,
            congrArg (· + 1) hlength, hfresh, hb⟩

/-- Every attempt is made at a standing that fruitless attempts lead to, while there is time. -/
theorem Exchange.exists_retries_of_mem_attemptsFrom {a : Attempt}
    (h : a ∈ x.attemptsFrom t budget limit here) :
    ∃ attempts counts there, x.Retries t budget here attempts counts there ∧
      budget.isExhausted there.now = false ∧ (x.attempt t there).1 = a := by
  obtain ⟨i, hi⟩ := List.mem_iff_getElem?.mp h
  obtain ⟨attempts, counts, there, hr, -, hfresh, ha⟩ :=
    Exchange.exists_retries_of_attemptsFrom_getElem? hi
  exact ⟨attempts, counts, there, hr, hfresh, ha⟩

/-- Every attempt records where it was made. -/
theorem Exchange.attempt_fst (x : Exchange) (t : Transport σ) (here : Standing σ) :
    (x.attempt t here).1.request = x.request ∧ (x.attempt t here).1.started = here.now ∧
      (x.attempt t here).1.deadline = here.now + here.window.nanos := by
  rcases ha : x.attempt t here with ⟨a, counts, e⟩
  cases Exchange.attempted_of_eq ha <;> exact ⟨rfl, rfl, rfl⟩

/-- Every attempt sends a copy at least, and no more than its burst, a failed send included. -/
theorem Exchange.sends_attempt (x : Exchange) (t : Transport σ) (here : Standing σ) :
    1 ≤ (x.attempt t here).1.sends ∧ (x.attempt t here).1.sends ≤ x.policy.copies here.factor := by
  have hone := x.policy.one_le_copies here.factor
  rcases ha : x.attempt t here with ⟨a, counts, e⟩
  cases Exchange.attempted_of_eq ha with
  | @broken delivered failure s lt short =>
    have hsends : (x.record here delivered (some failure) none).sends = delivered + 1 := rfl
    rw [hsends]
    exact ⟨Nat.succ_pos delivered, lt⟩
  | answered _ _ | rejected _ _ | silent _ => exact ⟨hone, Nat.le_refl _⟩

/-- Every attempt of a run is for the request of the exchange. -/
theorem Exchange.request_of_mem_attempts {a : Attempt} (h : a ∈ x.attempts t limit now s) :
    a.request = x.request := by
  obtain ⟨_, _, there, -, -, rfl⟩ := Exchange.exists_retries_of_mem_attemptsFrom h
  exact (x.attempt_fst t there).1

/-- Every attempt of a run sends a copy at least, and no more than the largest burst. -/
theorem Exchange.sends_of_mem_attempts {a : Attempt} (h : a ∈ x.attempts t limit now s) :
    1 ≤ a.sends ∧ a.sends ≤ max 1 x.policy.maxBurst.toNat := by
  obtain ⟨_, _, there, -, -, rfl⟩ := Exchange.exists_retries_of_mem_attemptsFrom h
  obtain ⟨hone, hle⟩ := x.sends_attempt t there
  exact ⟨hone, Nat.le_trans hle (x.policy.copies_le there.factor)⟩

/-- An exchange sends nothing but copies of its request. -/
theorem Exchange.sentIn_attempts (x : Exchange) (t : Transport σ) (limit : Nat) (now : Instant)
    (s : σ) :
    ∃ copies, sentIn (x.attempts t limit now s) = List.replicate copies x.request :=
  sentIn_of_request fun _ ha => Exchange.request_of_mem_attempts ha

/-- A run that is over: fruitless attempts, fewer than the limit, and an end. -/
theorem Exchange.run_eq_some_iff :
    x.run t limit now s = some run ↔
      ∃ attempts counts there last,
        x.Retries t (x.budget now) (x.first now s) attempts counts there ∧
          attempts.length < limit ∧ x.Ends t (x.budget now) there last ∧
            run = last.after attempts (.exchangeStarted :: counts) := by
  constructor
  · intro h
    obtain ⟨rest, hrest, rfl⟩ := Option.map_eq_some_iff.mp h
    obtain ⟨attempts, counts, there, last, hr, hlt, he, rfl⟩ := Exchange.loop_eq_some_iff.mp hrest
    exact ⟨attempts, counts, there, last, hr, hlt, he, rfl⟩
  · rintro ⟨attempts, counts, there, last, hr, hlt, he, rfl⟩
    have hrest := Exchange.loop_eq_some_iff.mpr ⟨attempts, counts, there, last, hr, hlt, he, rfl⟩
    rw [Exchange.run, hrest]
    rfl

/-- A run that is over is the same run wherever it is over. -/
theorem Exchange.run_of_length_lt {other : Nat} (h : x.run t limit now s = some run)
    (hlt : run.attempts.length < other) : x.run t other now s = some run := by
  obtain ⟨attempts, counts, there, last, hr, -, he, rfl⟩ := Exchange.run_eq_some_iff.mp h
  have hle : attempts.length ≤ (attempts ++ last.attempts).length := by
    rw [List.length_append]
    exact Nat.le_add_right ..
  exact Exchange.run_eq_some_iff.mpr
    ⟨attempts, counts, there, last, hr, Nat.lt_of_le_of_lt hle hlt, he, rfl⟩

/-- There is one run only. -/
theorem Exchange.run_unique {other : Nat} {run' : Run σ} (h : x.run t limit now s = some run)
    (h' : x.run t other now s = some run') : run = run' := by
  have hmore := Exchange.run_of_length_lt h
    (Nat.lt_succ_of_le (Nat.le_max_left run.attempts.length run'.attempts.length))
  have hmore' := Exchange.run_of_length_lt h'
    (Nat.lt_succ_of_le (Nat.le_max_right run.attempts.length run'.attempts.length))
  exact Option.some.inj (hmore.symm.trans hmore')

/-- A run that is not over: fruitless attempts, as many as the limit. -/
theorem Exchange.run_eq_none_iff :
    x.run t limit now s = none ↔
      ∃ attempts counts there,
        x.Retries t (x.budget now) (x.first now s) attempts counts there ∧
          attempts.length = limit := by
  rw [Exchange.run, Option.map_eq_none_iff, Exchange.loop_eq_none_iff]

/-- The attempts of a run that is over. -/
theorem Exchange.attempts_of_run (h : x.run t limit now s = some run) :
    x.attempts t limit now s = run.attempts := by
  obtain ⟨attempts, counts, there, last, hr, hlt, he, rfl⟩ := Exchange.run_eq_some_iff.mp h
  obtain ⟨more, rfl⟩ := Nat.exists_eq_add_of_lt hlt
  rw [Exchange.attempts, Nat.add_assoc, hr.attemptsFrom, he.attemptsFrom]
  rfl

/-- The attempts of a run that is not over. -/
theorem Exchange.attempts_of_retries
    (hr : x.Retries t (x.budget now) (x.first now s) attempts counts there) :
    x.attempts t attempts.length now s = attempts := by
  simpa [Exchange.attempts, Exchange.attemptsFrom] using hr.attemptsFrom 0

end Runs

end ServerDiscovery
