import ServerDiscovery.Exchange.Script
import ServerDiscovery.Proofs.Exchange.Attempts

/-! # How a run ends

A run is decided by a single call, its last: an accepted datagram, or a send that failed.  If no
call decides it, it ends because its time is spent.  `Exchange.verdict` says what a call decides,
and `Exchange.Concluded` that no call before the last decides anything.  `Exchange.concluded_of_run`
is the invariant: every run is concluded, whatever its transport does.

`Exchange.run_outcome` reads the three ways to end off it, each with the exact condition under which
it is taken.  It speaks of the calls in the engine's record of a run, so it says too that these are
what the transport is asked.
-/

namespace ServerDiscovery

variable {σ : Type} {x : Exchange} {t : Transport σ} {limit : Nat} {now : Instant} {s : σ}
  {run : Run σ}

/-! ## 1. Verdicts -/

/-- How a call ends a run; `none` if the run goes on. -/
def Exchange.verdict (x : Exchange) : Call → Option (Except Error Bytes)
  | .setDeadline _ => none
  | .send _ (.error e) => some (.error (.io e))
  | .send datagram (.ok written) =>
    if written = datagram.length then none else some (.error .shortWrite)
  | .receive (.error _) => none
  | .receive (.ok datagram) =>
    match x.accept datagram with
    | .ok () => some (.ok datagram)
    | .error _ => none

/-- No call decides anything. -/
def Exchange.Undecided (x : Exchange) (calls : List Call) : Prop :=
  ∀ call ∈ calls, x.verdict call = none

theorem Exchange.Undecided.append {first rest : List Call} (hf : x.Undecided first)
    (hr : x.Undecided rest) : x.Undecided (first ++ rest) := by
  intro call hc
  rcases List.mem_append.mp hc with hc | hc
  · exact hf call hc
  · exact hr call hc

/-- What a call can decide. -/
inductive Exchange.Decides (x : Exchange) : Call → Except Error Bytes → Prop
  | refused {datagram : Bytes} {e : IoError} :
      Decides x (.send datagram (.error e)) (.error (.io e))
  | short {datagram : Bytes} {written : Nat} (ne : written ≠ datagram.length) :
      Decides x (.send datagram (.ok written)) (.error .shortWrite)
  | accepted {datagram : Bytes} (accepts : x.Accepts datagram) :
      Decides x (.receive (.ok datagram)) (.ok datagram)

theorem Exchange.verdict_eq_some_iff {call : Call} {result : Except Error Bytes} :
    x.verdict call = some result ↔ x.Decides call result := by
  constructor
  · intro h
    unfold Exchange.verdict at h
    split at h
    · cases h
    · cases h
      exact .refused
    · split at h
      · cases h
      · next ne =>
        cases h
        exact .short ne
    · cases h
    · split at h
      · next accepts =>
        cases h
        exact .accepted accepts
      · cases h
  · intro h
    cases h with
    | refused => rfl
    | short ne => simp [Exchange.verdict, ne]
    | accepted accepts =>
      simp only [Exchange.verdict]
      rw [accepts]

theorem Exchange.verdict_receive_eq_none_iff {datagram : Bytes} :
    x.verdict (.receive (.ok datagram)) = none ↔ ¬ x.Accepts datagram := by
  simp only [Exchange.verdict, Exchange.Accepts]
  cases x.accept datagram <;> simp

theorem Exchange.verdict_eq_ok_iff {call : Call} {datagram : Bytes} :
    x.verdict call = some (.ok datagram) ↔
      call = .receive (.ok datagram) ∧ x.Accepts datagram := by
  rw [Exchange.verdict_eq_some_iff]
  constructor
  · rintro ⟨⟩
    next accepts => exact ⟨rfl, accepts⟩
  · rintro ⟨rfl, accepts⟩
    exact .accepted accepts

theorem Exchange.verdict_eq_io_iff {call : Call} {e : IoError} :
    x.verdict call = some (.error (.io e)) ↔ ∃ datagram, call = .send datagram (.error e) := by
  rw [Exchange.verdict_eq_some_iff]
  constructor
  · rintro ⟨⟩
    exact ⟨_, rfl⟩
  · rintro ⟨datagram, rfl⟩
    exact .refused

theorem Exchange.verdict_eq_shortWrite_iff {call : Call} :
    x.verdict call = some (.error .shortWrite) ↔
      ∃ datagram written, call = .send datagram (.ok written) ∧ written ≠ datagram.length := by
  rw [Exchange.verdict_eq_some_iff]
  constructor
  · rintro ⟨⟩
    next ne => exact ⟨_, _, rfl, ne⟩
  · rintro ⟨datagram, written, rfl, ne⟩
    exact .short ne

/-- No call decides that the time is spent, nor anything that is not listed here. -/
theorem Exchange.verdict_cases {call : Call} {result : Except Error Bytes}
    (h : x.verdict call = some result) :
    (∃ datagram, result = .ok datagram) ∨ (∃ e, result = .error (.io e)) ∨
      result = .error .shortWrite := by
  cases Exchange.verdict_eq_some_iff.mp h with
  | refused => exact .inr (.inl ⟨_, rfl⟩)
  | short _ => exact .inr (.inr rfl)
  | accepted _ => exact .inl ⟨_, rfl⟩

/-- A failed send decides a run. -/
theorem Exchange.decides_of_failure {failure : SendFailure} {datagram : Bytes}
    (h : failure.outcome ≠ .ok datagram.length) :
    x.Decides (.send datagram failure.outcome) (.error failure.toError) := by
  cases failure with
  | refused e => exact .refused
  | short written => exact .short fun heq => h (congrArg Except.ok heq)

/-- What an attempt begins with decides nothing. -/
theorem Exchange.undecided_opening (here : Standing σ) (delivered : Nat) :
    x.Undecided (x.opening here delivered) := by
  intro call hc
  rcases List.mem_cons.mp hc with rfl | hc
  · rfl
  · rw [List.eq_of_mem_replicate hc]
    simp [Exchange.verdict]

/-! ## 2. The invariant -/

/-- The calls of a run with the given result: no call but the last decides anything, and the time is
spent if not even the last does. -/
inductive Exchange.Concluded (x : Exchange) : List Call → Except Error Bytes → Prop
  | spent {calls : List Call} (undecided : x.Undecided calls) : Concluded x calls (.error .timeout)
  | decided {earlier : List Call} {call : Call} {result : Except Error Bytes}
      (undecided : x.Undecided earlier) (verdict : x.verdict call = some result) :
      Concluded x (earlier ++ [call]) result

theorem Exchange.Concluded.prepend {first calls : List Call} {result : Except Error Bytes}
    (hf : x.Undecided first) (h : x.Concluded calls result) :
    x.Concluded (first ++ calls) result := by
  cases h with
  | spent hu => exact .spent (hf.append hu)
  | decided hu hv =>
    rw [← List.append_assoc]
    exact .decided (hf.append hu) hv

/-- A concluded run has the result that a call decides, wherever in the run that call is made. -/
theorem Exchange.Concluded.eq_of_verdict {calls : List Call} {result r : Except Error Bytes}
    {call : Call} (h : x.Concluded calls result) (hc : call ∈ calls)
    (hv : x.verdict call = some r) : result = r := by
  cases h with
  | spent hu =>
    rw [hu call hc] at hv
    cases hv
  | decided hu hlast =>
    rcases List.mem_append.mp hc with hc | hc
    · rw [hu call hc] at hv
      cases hv
    · rw [List.mem_singleton.mp hc, hlast] at hv
      exact Option.some.inj hv

theorem Exchange.Concluded.eq_timeout_iff {calls : List Call} {result : Except Error Bytes}
    (h : x.Concluded calls result) : result = .error .timeout ↔ x.Undecided calls := by
  constructor
  · rintro rfl
    cases h with
    | spent hu => exact hu
    | decided _ hlast =>
      rcases Exchange.verdict_cases hlast with ⟨_, h⟩ | ⟨_, h⟩ | h <;> cases h
  · intro hu
    cases h with
    | spent _ => rfl
    | decided _ hlast =>
      rw [hu _ (List.mem_append_right _ List.mem_cons_self)] at hlast
      cases hlast

/-- Any other result is decided by the last call, and by no other. -/
theorem Exchange.Concluded.eq_iff {calls : List Call} {result r : Except Error Bytes}
    (h : x.Concluded calls result) (hr : r ≠ .error .timeout) :
    result = r ↔
      ∃ earlier call, calls = earlier ++ [call] ∧ x.verdict call = some r ∧
        x.Undecided earlier := by
  constructor
  · rintro rfl
    cases h with
    | spent _ => exact absurd rfl hr
    | decided hu hlast => exact ⟨_, _, rfl, hlast, hu⟩
  · rintro ⟨earlier, call, rfl, hv, -⟩
    exact h.eq_of_verdict (List.mem_append_right _ List.mem_cons_self) hv

/-- Any other result is the result exactly if some call decides it. -/
theorem Exchange.Concluded.eq_iff_exists_mem {calls : List Call} {result r : Except Error Bytes}
    (h : x.Concluded calls result) (hr : r ≠ .error .timeout) :
    result = r ↔ ∃ call ∈ calls, x.verdict call = some r := by
  constructor
  · intro heq
    obtain ⟨earlier, call, rfl, hv, -⟩ := (h.eq_iff hr).mp heq
    exact ⟨call, List.mem_append_right _ List.mem_cons_self, hv⟩
  · rintro ⟨call, hc, hv⟩
    exact h.eq_of_verdict hc hv

/-- The calls of an attempt that is made again decide nothing. -/
theorem Exchange.undecided_of_retry {here : Standing σ} {a : Attempt} {counts : List Count}
    {buffer : Bytes} (h : x.attempt t here = (a, counts, .retry now buffer s)) :
    x.Undecided a.calls := by
  cases Exchange.attempted_of_eq h with
  | rejected outcome rejected =>
    rw [Exchange.calls_record_of_reception]
    refine (x.undecided_opening here _).append fun call hc => ?_
    rw [List.mem_singleton.mp hc]
    exact Exchange.verdict_receive_eq_none_iff.mpr rejected
  | silent outcome =>
    rw [Exchange.calls_record_of_reception]
    refine (x.undecided_opening here _).append fun call hc => ?_
    rw [List.mem_singleton.mp hc]
    rfl

/-- The last attempt decides the run by its last call. -/
theorem Exchange.concluded_of_final {here : Standing σ} {a : Attempt} {counts : List Count}
    {result : Except Error Bytes} (h : x.attempt t here = (a, counts, .final result now s)) :
    x.Concluded a.calls result := by
  cases Exchange.attempted_of_eq h with
  | broken lt short =>
    rw [Exchange.calls_record_of_failure]
    exact .decided (x.undecided_opening here _)
      (Exchange.verdict_eq_some_iff.mpr (Exchange.decides_of_failure short))
  | answered outcome accepted =>
    rw [Exchange.calls_record_of_reception]
    exact .decided (x.undecided_opening here _)
      (Exchange.verdict_eq_some_iff.mpr (.accepted accepted))

/-- No attempt ends a run because the time is spent. -/
theorem Exchange.ne_timeout_of_final {here : Standing σ} {a : Attempt} {counts : List Count}
    {result : Except Error Bytes} (h : x.attempt t here = (a, counts, .final result now s)) :
    result ≠ .error .timeout := by
  cases Exchange.attempted_of_eq h with
  | @broken _ failure _ _ _ => cases failure <;> exact fun h => by cases h
  | answered _ _ => exact fun h => by cases h

/-- The calls of fruitless attempts decide nothing. -/
theorem Exchange.Retries.undecided {budget : Budget} {here there : Standing σ}
    {attempts : List Attempt} {counts : List Count}
    (hr : x.Retries t budget here attempts counts there) : x.Undecided (callsOf attempts) := by
  induction hr with
  | refl here =>
    intro call hc
    cases hc
  | head _ ha _ ih => exact (Exchange.undecided_of_retry ha).append ih

/-- **Every run is concluded.** -/
theorem Exchange.concluded_of_run (h : x.run t limit now s = some run) :
    x.Concluded run.calls run.result := by
  obtain ⟨attempts, counts, there, last, hr, -, he, rfl⟩ := Exchange.run_eq_some_iff.mp h
  have hlast : x.Concluded last.calls last.result := by
    cases he with
    | spent _ => exact .spent fun call hc => by cases hc
    | final _ ha => simpa [Run.calls] using Exchange.concluded_of_final ha
  have hcalls : (last.after attempts (.exchangeStarted :: counts)).calls =
      callsOf attempts ++ last.calls := callsOf_append attempts last.attempts
  rw [hcalls]
  exact hlast.prepend hr.undecided

/-- A run sends nothing but its request. -/
theorem Exchange.eq_request_of_send_mem {datagram : Bytes} {outcome : Except IoError Nat}
    (hmem : .send datagram outcome ∈ callsOf (x.attempts t limit now s)) :
    datagram = x.request := by
  obtain ⟨copies, hsent⟩ := x.sentIn_attempts t limit now s
  have : datagram ∈ sentIn (x.attempts t limit now s) :=
    List.mem_filterMap.mpr ⟨_, hmem, rfl⟩
  rw [hsent] at this
  exact List.eq_of_mem_replicate this

/-- No attempt begins once the time is spent. -/
theorem Exchange.started_lt_of_mem_attempts {a : Attempt} (h : a ∈ x.attempts t limit now s) :
    a.started - now < (max x.timeout x.policy.minTimeout).nanos := by
  obtain ⟨_, _, there, -, hfresh, rfl⟩ := Exchange.exists_retries_of_mem_attemptsFrom h
  rw [(x.attempt_fst t there).2.1]
  exact Budget.isExhausted_eq_false_iff.mp hfresh

/-- A run that times out has spent its time. -/
theorem Exchange.le_elapsed_of_timeout (h : x.run t limit now s = some run)
    (htimeout : run.result = .error .timeout) :
    (max x.timeout x.policy.minTimeout).nanos ≤ run.now - now := by
  obtain ⟨attempts, counts, there, last, -, -, he, rfl⟩ := Exchange.run_eq_some_iff.mp h
  cases he with
  | spent hx => exact Budget.isExhausted_eq_true_iff.mp hx
  | final _ ha => exact absurd htimeout (Exchange.ne_timeout_of_final ha)

/-- A run is not over as long as nothing decides it and there is time. -/
theorem Exchange.run_eq_none_iff_undecided :
    x.run t limit now s = none ↔
      (x.attempts t limit now s).length = limit ∧
        x.Undecided (callsOf (x.attempts t limit now s)) := by
  constructor
  · intro h
    obtain ⟨attempts, counts, there, hr, rfl⟩ := Exchange.run_eq_none_iff.mp h
    rw [Exchange.attempts_of_retries hr]
    exact ⟨rfl, hr.undecided⟩
  · rintro ⟨hlen, hu⟩
    cases h : x.run t limit now s with
    | none => rfl
    | some run =>
      rw [Exchange.attempts_of_run h] at hlen hu
      have htimeout := (Exchange.concluded_of_run h).eq_timeout_iff.mpr hu
      obtain ⟨attempts, counts, there, last, -, hlt, he, rfl⟩ := Exchange.run_eq_some_iff.mp h
      cases he with
      | spent hx =>
        simp only [Run.after, List.append_nil] at hlen
        omega
      | final _ ha => exact absurd htimeout (Exchange.ne_timeout_of_final ha)

/-! ## 3. The three ways to end -/

section Concluded

variable {calls : List Call} {result : Except Error Bytes}

theorem Exchange.Concluded.eq_ok_iff (h : x.Concluded calls result) {datagram : Bytes} :
    result = .ok datagram ↔ .receive (.ok datagram) ∈ calls ∧ x.Accepts datagram := by
  rw [h.eq_iff_exists_mem (by simp)]
  constructor
  · rintro ⟨call, hmem, hv⟩
    obtain ⟨rfl, accepted⟩ := Exchange.verdict_eq_ok_iff.mp hv
    exact ⟨hmem, accepted⟩
  · rintro ⟨hmem, accepted⟩
    exact ⟨_, hmem, Exchange.verdict_eq_ok_iff.mpr ⟨rfl, accepted⟩⟩

theorem Exchange.Concluded.last_of_ok {datagram : Bytes} (h : x.Concluded calls (.ok datagram)) :
    ∃ earlier, calls = earlier ++ [.receive (.ok datagram)] ∧ x.Undecided earlier := by
  obtain ⟨earlier, call, rfl, hv, hu⟩ := (h.eq_iff (by simp)).mp rfl
  obtain ⟨rfl, -⟩ := Exchange.verdict_eq_ok_iff.mp hv
  exact ⟨earlier, rfl, hu⟩

theorem Exchange.Concluded.eq_io_iff (h : x.Concluded calls result) {e : IoError} :
    result = .error (.io e) ↔ ∃ datagram, .send datagram (.error e) ∈ calls := by
  rw [h.eq_iff_exists_mem (by simp)]
  constructor
  · rintro ⟨call, hmem, hv⟩
    obtain ⟨datagram, rfl⟩ := Exchange.verdict_eq_io_iff.mp hv
    exact ⟨datagram, hmem⟩
  · rintro ⟨datagram, hmem⟩
    exact ⟨_, hmem, rfl⟩

theorem Exchange.Concluded.last_of_io {e : IoError} (h : x.Concluded calls (.error (.io e))) :
    ∃ earlier datagram, calls = earlier ++ [.send datagram (.error e)] ∧ x.Undecided earlier := by
  obtain ⟨earlier, call, rfl, hv, hu⟩ := (h.eq_iff (by simp)).mp rfl
  obtain ⟨datagram, rfl⟩ := Exchange.verdict_eq_io_iff.mp hv
  exact ⟨earlier, datagram, rfl, hu⟩

theorem Exchange.Concluded.eq_shortWrite_iff (h : x.Concluded calls result) :
    result = .error .shortWrite ↔
      ∃ datagram written, .send datagram (.ok written) ∈ calls ∧ written ≠ datagram.length := by
  rw [h.eq_iff_exists_mem (by simp)]
  constructor
  · rintro ⟨call, hmem, hv⟩
    obtain ⟨datagram, written, rfl, short⟩ := Exchange.verdict_eq_shortWrite_iff.mp hv
    exact ⟨datagram, written, hmem, short⟩
  · rintro ⟨datagram, written, hmem, short⟩
    exact ⟨_, hmem, Exchange.verdict_eq_shortWrite_iff.mpr ⟨datagram, written, rfl, short⟩⟩

theorem Exchange.Concluded.last_of_shortWrite (h : x.Concluded calls (.error .shortWrite)) :
    ∃ earlier datagram written, calls = earlier ++ [.send datagram (.ok written)] ∧
      x.Undecided earlier := by
  obtain ⟨earlier, call, rfl, hv, hu⟩ := (h.eq_iff (by simp)).mp rfl
  obtain ⟨datagram, written, rfl, -⟩ := Exchange.verdict_eq_shortWrite_iff.mp hv
  exact ⟨earlier, datagram, written, rfl, hu⟩

/-- There is no fourth way. -/
theorem Exchange.Concluded.result_cases (h : x.Concluded calls result) :
    (∃ datagram, result = .ok datagram) ∨ (∃ e, result = .error (.io e)) ∨
      result = .error .shortWrite ∨ result = .error .timeout := by
  cases h with
  | spent _ => exact .inr (.inr (.inr rfl))
  | decided _ hv =>
    rcases Exchange.verdict_cases hv with hok | hio | hshort
    · exact .inl hok
    · exact .inr (.inl hio)
    · exact .inr (.inr (.inl hshort))

end Concluded

/-- **How a run ends.**  It goes on as long as no call decides it and there is time; attempts begin
only while there is time.  When it is over, it has the first accepted datagram, as it was received,
and asks nothing of its transport afterwards; or it has the error of a send that failed, and asks
nothing afterwards; or nothing decided it and its time is spent.  The calls of a run are those that
a log of its transport shows.

The timeout may be as long as a `Duration` can be.  No deadline is taken to overflow the clock, as a
host's would that lies beyond about `2 ^ 63` seconds (`Instant`). -/
theorem Exchange.run_outcome (x : Exchange) (t : Transport σ) (limit : Nat) (now : Instant)
    (s : σ) :
    (x.run t limit now s = none ↔
      (x.attempts t limit now s).length = limit ∧
        x.Undecided (callsOf (x.attempts t limit now s))) ∧
    (∀ a ∈ x.attempts t limit now s,
      a.started - now < (max x.timeout x.policy.minTimeout).nanos) ∧
    (∀ log, x.run t.logged limit now (s, log) =
      (x.run t limit now s).map fun run =>
        run.logged (log ++ run.calls.filter Call.isTransfer)) ∧
    ∀ run, x.run t limit now s = some run →
      run.attempts = x.attempts t limit now s ∧
      ((∃ datagram, run.result = .ok datagram) ∨ (∃ e, run.result = .error (.io e)) ∨
        run.result = .error .shortWrite ∨ run.result = .error .timeout) ∧
      -- A datagram is accepted.
      (∀ datagram, run.result = .ok datagram ↔
        .receive (.ok datagram) ∈ run.calls ∧ x.Accepts datagram) ∧
      (∀ datagram, run.result = .ok datagram →
        ∃ earlier, run.calls = earlier ++ [.receive (.ok datagram)] ∧ x.Undecided earlier) ∧
      -- A send fails.
      (∀ e, run.result = .error (.io e) ↔
        .send x.request (.error e) ∈ run.calls) ∧
      (∀ e, run.result = .error (.io e) →
        ∃ earlier, run.calls = earlier ++ [.send x.request (.error e)] ∧ x.Undecided earlier) ∧
      (run.result = .error .shortWrite ↔
        ∃ written, .send x.request (.ok written) ∈ run.calls ∧ written ≠ x.request.length) ∧
      (run.result = .error .shortWrite →
        ∃ earlier written, run.calls = earlier ++ [.send x.request (.ok written)] ∧
          x.Undecided earlier) ∧
      -- The time is spent.
      (run.result = .error .timeout ↔
        x.Undecided run.calls ∧
          (max x.timeout x.policy.minTimeout).nanos ≤ run.now - now) := by
  refine ⟨Exchange.run_eq_none_iff_undecided, fun a ha => Exchange.started_lt_of_mem_attempts ha,
    x.run_logged t limit now s, fun run h => ?_⟩
  have hc := Exchange.concluded_of_run h
  have hattempts := Exchange.attempts_of_run h
  have hrequest : ∀ {datagram outcome}, .send datagram outcome ∈ run.calls →
      datagram = x.request := by
    intro datagram outcome hmem
    rw [Run.calls, ← hattempts] at hmem
    exact Exchange.eq_request_of_send_mem hmem
  refine ⟨hattempts.symm, hc.result_cases, fun datagram => hc.eq_ok_iff, fun datagram hok => ?_,
    fun e => ?_, fun e hio => ?_, ?_, fun hshort => ?_, ?_⟩
  · rw [hok] at hc
    exact hc.last_of_ok
  · rw [hc.eq_io_iff]
    constructor
    · rintro ⟨datagram, hmem⟩
      exact hrequest hmem ▸ hmem
    · exact fun hmem => ⟨x.request, hmem⟩
  · rw [hio] at hc
    obtain ⟨earlier, datagram, hcalls, hu⟩ := hc.last_of_io
    have hmem : .send datagram (.error e) ∈ run.calls := by simp [hcalls]
    exact ⟨earlier, hrequest hmem ▸ hcalls, hu⟩
  · rw [hc.eq_shortWrite_iff]
    constructor
    · rintro ⟨datagram, written, hmem, short⟩
      obtain rfl := hrequest hmem
      exact ⟨written, hmem, short⟩
    · rintro ⟨written, hmem, short⟩
      exact ⟨x.request, written, hmem, short⟩
  · rw [hshort] at hc
    obtain ⟨earlier, datagram, written, hcalls, hu⟩ := hc.last_of_shortWrite
    have hmem : .send datagram (.ok written) ∈ run.calls := by simp [hcalls]
    exact ⟨earlier, written, hrequest hmem ▸ hcalls, hu⟩
  · rw [hc.eq_timeout_iff]
    exact ⟨fun hu => ⟨hu, Exchange.le_elapsed_of_timeout h (hc.eq_timeout_iff.mpr hu)⟩, And.left⟩

/-- A policy without bursts. -/
def singleCopies : RetryPolicy := { RetryPolicy.default with maxBurst := 1 }

/-- A line to a peer that answers the first request for a token with sixteen bytes, and the second
one with a token. -/
def lateGrant : Line ScriptedPeer :=
  { peer := { token := { first :=
      [.sends [⟨.ofMillis 1, .ok (List.replicate 16 7)⟩],
       .sends [⟨.ofMillis 1, .ok [4, 0, 0, 1, 2, 3, 4, 5, 9, 9, 9, 9]⟩]] } } }

/-- The accepted datagram is shorter than what the buffer held before, and nothing of that is in the
result. -/
theorem Exchange.run_outcome_lateGrant :
    ∃ run, (tokenExchange ⟨1, 2, 3, 4⟩ (.ofSeconds 1 0) singleCopies).run
        (Line.transport ScriptedPeer.react) 2 0 lateGrant = some run ∧
      run.result = .ok [4, 0, 0, 1, 2, 3, 4, 5, 9, 9, 9, 9] ∧
      .receive (.ok [4, 0, 0, 1, 2, 3, 4, 5, 9, 9, 9, 9]) ∈ run.calls := by
  have hresult : ((tokenExchange ⟨1, 2, 3, 4⟩ (.ofSeconds 1 0) singleCopies).run
      (Line.transport ScriptedPeer.react) 2 0 lateGrant).map Run.result =
      some (.ok [4, 0, 0, 1, 2, 3, 4, 5, 9, 9, 9, 9]) := by decide +kernel
  obtain ⟨run, hrun, hok⟩ := Option.map_eq_some_iff.mp hresult
  obtain ⟨-, -, -, houtcome⟩ := Exchange.run_outcome
    (tokenExchange ⟨1, 2, 3, 4⟩ (.ofSeconds 1 0) singleCopies) (Line.transport ScriptedPeer.react)
    2 0 lateGrant
  obtain ⟨-, -, hiff, -⟩ := houtcome run hrun
  exact ⟨run, hrun, hok, ((hiff _).mp hok).1⟩

end ServerDiscovery
