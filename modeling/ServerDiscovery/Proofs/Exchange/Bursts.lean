import ServerDiscovery.Proofs.Exchange.Attempts
import ServerDiscovery.Proofs.Exchange.Factor
import ServerDiscovery.Proofs.Handshake.Elapsed

/-! # The bursts of a run

How many copies an attempt sends depends on its place in the run alone (`Exchange.copies`), not on
what the transport does: the factor of the attempt at place `i` is the growth multiplied `i` times
(`Exchange.Retries.factor_eq`).  So what is true of bursts is true of a sequence of numbers, and the
transport only decides how far the run gets.

The sequence is bounded whatever the growth is, a growth that is no number included.  That it never
shrinks needs a growth that is at least one, and then no bound on the number of attempts: the factor
may become infinity, but it does not come back (`Factor.AtLeastOne.float_mul`).
-/

namespace ServerDiscovery

open Factor

variable {σ : Type} {x : Exchange} {t : Transport σ} {budget : Budget} {here there : Standing σ}
  {limit i j : Nat} {now : Instant} {s : σ} {attempts : List Attempt} {counts : List Count}
  {a : Attempt}

/-! ## 1. Factors -/

/-- The factor of the attempt at place `i`. -/
def Exchange.factor (x : Exchange) : (i : Nat) → Float
  | 0 => 1.0
  | i + 1 => x.factor i * x.growth

/-- The number of copies of the attempt at place `i`. -/
def Exchange.copies (x : Exchange) (i : Nat) : Nat := x.policy.copies (x.factor i)

/-- Each attempt grows the factor once. -/
theorem Exchange.Retries.factor_eq (hr : x.Retries t budget here attempts counts there)
    (h : here.factor = x.factor i) : there.factor = x.factor (i + attempts.length) := by
  induction hr generalizing i with
  | refl here => exact h
  | @head here there a now buffer s attempts counts others _ _ _ ih =>
    have hnext : (x.next budget here now buffer s).factor = x.factor (i + 1) :=
      congrArg (· * x.growth) h
    rw [ih hnext, List.length_cons, Nat.add_right_comm, Nat.add_assoc]

theorem Exchange.atLeastOne_factor (hgrowth : 1.0 ≤ x.growth) (i : Nat) :
    AtLeastOne (x.factor i).toModel.unpack := by
  induction i with
  | zero => exact atLeastOne_one
  | succ i ih => exact (ih.float_mul (atLeastOne_of_one_le hgrowth)).1

/-- With a growth that is at least one no factor is smaller than one before it. -/
theorem Exchange.factor_grows (hgrowth : 1.0 ≤ x.growth) (i n : Nat) :
    (x.factor i).toUInt64.toNat ≤ (x.factor (i + n)).toUInt64.toNat := by
  induction n with
  | zero => exact Nat.le_refl _
  | succ n ih =>
    have hfactor := Exchange.atLeastOne_factor hgrowth (i + n)
    exact Nat.le_trans ih (hfactor.float_mul (atLeastOne_of_one_le hgrowth)).2

/-! ## 2. Copies -/

theorem RetryPolicy.copies_le_copies (policy : RetryPolicy) {f g : Float}
    (h : f.toUInt64.toNat ≤ g.toUInt64.toNat) : policy.copies f ≤ policy.copies g := by
  unfold RetryPolicy.copies
  omega

/-- An attempt whose sends all go out whole sends all its copies and waits once. -/
theorem Exchange.attempt_eq_record_of_none (x : Exchange) (t : Transport σ) (here : Standing σ)
    (h : (x.attempt t here).1.failure = none) :
    ∃ outcome, (x.attempt t here).1 =
      x.record here (x.policy.copies here.factor) none (some outcome) := by
  rcases ha : x.attempt t here with ⟨a, counts, e⟩
  rw [ha] at h
  cases Exchange.attempted_of_eq ha with
  | broken _ _ => cases h
  | answered _ _ | rejected _ _ | silent _ => exact ⟨_, rfl⟩

/-- The attempts whose sends all go out whole. -/
def completeIn (attempts : List Attempt) : List Attempt := attempts.filter (·.failure.isNone)

/-- Attempts that each send between one and `most` datagrams send so many for each of them. -/
theorem length_sentIn_bounds {most : Nat} (h : ∀ a ∈ attempts, 1 ≤ a.sends ∧ a.sends ≤ most) :
    attempts.length ≤ (sentIn attempts).length ∧
      (sentIn attempts).length ≤ attempts.length * most := by
  induction attempts with
  | nil => exact ⟨Nat.le_refl _, Nat.zero_le _⟩
  | cons a attempts ih =>
    obtain ⟨hone, hmost⟩ := h a List.mem_cons_self
    obtain ⟨hlow, hhigh⟩ := ih fun b hb => h b (List.mem_cons_of_mem a hb)
    have hlength : (sentIn (a :: attempts)).length = a.sends + (sentIn attempts).length := by
      simp only [sentIn, callsOf_cons, List.filterMap_append, List.length_append,
        a.filterMap_sent?_calls, List.length_replicate]
    rw [hlength, List.length_cons, Nat.add_mul, Nat.one_mul]
    omega

/-! ## 3. Bursts of a run -/

/-- **Bursts are bounded and never shrink.**  The attempt at place `i` of a run, unless a send
fails, sets its deadline, sends `x.copies i` copies of the request and waits once.  There is always
a copy, and never more than the largest burst, or than one if that is zero, whatever the growth is;
so complete attempts send a datagram for each of them at least, and the largest burst for each of
them at most.  With a growth that is at least one, an attempt sends no fewer copies than any before
it, and once there are as many as the largest burst there always are.

These are the attempts up to any limit, so this holds of runs that are over and of runs that are
not.  A run that is over has made exactly these, and what they sent is what a log of its transport
shows. -/
theorem Exchange.bursts_never_shrink (x : Exchange) (t : Transport σ) (limit : Nat) (now : Instant)
    (s : σ) :
    (∀ run, x.run t limit now s = some run → run.attempts = x.attempts t limit now s) ∧
    (∀ log, x.run t.logged limit now (s, log) =
      (x.run t limit now s).map fun run =>
        run.logged (log ++ run.calls.filter Call.isTransfer)) ∧
    (∀ i a, (x.attempts t limit now s)[i]? = some a → a.failure = none →
      a.delivered = x.copies i ∧ ∃ outcome, a.calls = .setDeadline a.deadline ::
        (List.replicate (x.copies i) (.send x.request (.ok x.request.length)) ++
          [.receive outcome])) ∧
    (∀ i, 1 ≤ x.copies i ∧ x.copies i ≤ max 1 x.policy.maxBurst.toNat) ∧
    ((completeIn (x.attempts t limit now s)).length ≤
        (sentIn (completeIn (x.attempts t limit now s))).length ∧
      (sentIn (completeIn (x.attempts t limit now s))).length ≤
        (completeIn (x.attempts t limit now s)).length * max 1 x.policy.maxBurst.toNat) ∧
    (1.0 ≤ x.growth → ∀ i j, i ≤ j → x.copies i ≤ x.copies j ∧
      (x.copies i = x.policy.maxBurst.toNat → x.copies j = x.policy.maxBurst.toNat)) := by
  refine ⟨fun run h => (Exchange.attempts_of_run h).symm, x.run_logged t limit now s,
    fun i a ha hwhole => ?_, fun i => ⟨x.policy.one_le_copies _, x.policy.copies_le _⟩,
    length_sentIn_bounds fun a ha => x.sends_of_mem_attempts (List.mem_filter.mp ha).1,
    fun hgrowth i j hij => ?_⟩
  · obtain ⟨attempts, counts, there, hr, rfl, -, rfl⟩ :=
      Exchange.exists_retries_of_attemptsFrom_getElem? ha
    have hcopies : x.policy.copies there.factor = x.copies attempts.length := by
      rw [Exchange.copies, hr.factor_eq (i := 0) rfl, Nat.zero_add]
    obtain ⟨outcome, hrecord⟩ := x.attempt_eq_record_of_none t there hwhole
    rw [hrecord, x.calls_record_of_reception, hcopies]
    exact ⟨rfl, outcome, rfl⟩
  · obtain ⟨n, rfl⟩ := Nat.exists_eq_add_of_le hij
    have hle : x.copies i ≤ x.copies (i + n) :=
      x.policy.copies_le_copies (Exchange.factor_grows hgrowth i n)
    have hone : 1 ≤ x.copies i := x.policy.one_le_copies _
    have hmost : x.copies (i + n) ≤ max 1 x.policy.maxBurst.toNat := x.policy.copies_le _
    exact ⟨hle, by omega⟩

/-- An exchange whose bursts double, up to three copies. -/
def threeCopies : Exchange :=
  Query.serverList.exchange ⟨⟨1, 2, 3, 4⟩, ⟨5, 6, 7, 8⟩⟩ (.ofSeconds 1 0)
    { RetryPolicy.default with maxBurst := 3 }

/-- Bursts that double reach three copies with the third attempt, and stay there for ever. -/
theorem Exchange.bursts_never_shrink_threeCopies :
    (threeCopies.attempts mute 6 0 ()).map (fun a => (a.delivered, a.failure)) =
        [(1, none), (2, none), (3, none), (3, none), (3, none)] ∧
      (threeCopies.copies 0, threeCopies.copies 1) = (1, 2) ∧
      ∀ j, 2 ≤ j → threeCopies.copies j = 3 := by
  obtain ⟨-, -, -, -, -, hgrows⟩ := threeCopies.bursts_never_shrink mute 6 0 ()
  have hgrowth : 1.0 ≤ threeCopies.growth := by decide +kernel
  have hthree : threeCopies.copies 2 = 3 := by decide +kernel
  exact ⟨by decide +kernel, by decide +kernel, fun j hj => (hgrows hgrowth 2 j hj).2 hthree⟩

end ServerDiscovery
