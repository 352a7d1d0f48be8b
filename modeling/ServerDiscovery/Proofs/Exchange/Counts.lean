import ServerDiscovery.Proofs.Exchange.Outcome

/-! # What a run counts

Counting follows the calls of a run: `Exchange.tally` is what is counted for a call, and a run
counts that it began, the tallies of its calls, and that it is out of time if it is
(`Exchange.counts_eq_of_run`).

`Exchange.counts` are the steps of counting whether or not the run is over after a number of
attempts.  They begin with the one step that begins a run.  What follows is quiet, which means that
it neither begins nor ends a run, but for the very last step of a run that is over, which counts how
it ended (`Exchange.exists_counts_eq`).  This is read off `Exchange.Concluded`: a run is ended by
its last call or by nothing.
-/

namespace ServerDiscovery

variable {σ : Type} {x : Exchange} {t : Transport σ} {budget : Budget} {limit : Nat}
  {here there : Standing σ} {attempts : List Attempt} {made : List Count} {now : Instant} {s : σ}
  {run last : Run σ} {calls : List Call} {call : Call} {result : Except Error Bytes}

/-! ## 1. Tallies -/

/-- What is counted for a call. -/
def Exchange.tally (x : Exchange) : Call → List Count
  | .setDeadline _ => []
  | .send _ (.error _) => [.exchangeFailed]
  | .send datagram (.ok written) =>
    if written = datagram.length then Count.sent datagram.length else [.exchangeFailed]
  | .receive (.error _) => []
  | .receive (.ok datagram) =>
    Count.received datagram.length ++
      match x.accept datagram with
      | .ok () => [.exchangeSucceeded]
      | .error _ => [.responseMismatched]

theorem Exchange.tally_send_of_failure {failure : SendFailure} {datagram : Bytes}
    (h : failure.outcome ≠ .ok datagram.length) :
    x.tally (.send datagram failure.outcome) = [.exchangeFailed] := by
  cases failure with
  | refused e => rfl
  | short written => exact if_neg fun heq => h (congrArg Except.ok heq)

theorem Exchange.tally_receive_of_accepts {datagram : Bytes} (h : x.Accepts datagram) :
    x.tally (.receive (.ok datagram)) =
      Count.received datagram.length ++ [.exchangeSucceeded] := by
  simp only [Exchange.tally]
  rw [h]

theorem Exchange.tally_receive_of_not_accepts {datagram : Bytes} (h : ¬ x.Accepts datagram) :
    x.tally (.receive (.ok datagram)) =
      Count.received datagram.length ++ [.responseMismatched] := by
  unfold Exchange.Accepts at h
  simp only [Exchange.tally]
  split
  · next accepts => exact absurd accepts h
  · rfl

/-- What an attempt begins with counts the whole sends. -/
theorem Exchange.flatMap_tally_opening (here : Standing σ) (delivered : Nat) :
    (x.opening here delivered).flatMap x.tally = sentCounts delivered x.request.length := by
  have hsend : x.tally (.send x.request (.ok x.request.length)) = Count.sent x.request.length :=
    if_pos rfl
  rw [Exchange.opening, List.flatMap_cons, List.flatMap_def, List.map_replicate, hsend]
  rfl

/-- An attempt counts the tallies of its calls. -/
theorem Exchange.counts_attempt {a : Attempt} {e : AttemptEnd σ}
    (h : x.attempt t here = (a, made, e)) : made = a.calls.flatMap x.tally := by
  cases Exchange.attempted_of_eq h with
  | broken lt short =>
    rw [Exchange.calls_record_of_failure, List.flatMap_append, x.flatMap_tally_opening,
      List.flatMap_singleton, Exchange.tally_send_of_failure short]
  | answered outcome accepted =>
    rw [Exchange.calls_record_of_reception, List.flatMap_append, x.flatMap_tally_opening,
      List.flatMap_singleton, Exchange.tally_receive_of_accepts accepted, List.append_assoc]
  | rejected outcome rejected =>
    rw [Exchange.calls_record_of_reception, List.flatMap_append, x.flatMap_tally_opening,
      List.flatMap_singleton, Exchange.tally_receive_of_not_accepts rejected, List.append_assoc]
  | silent outcome =>
    rw [Exchange.calls_record_of_reception, List.flatMap_append, x.flatMap_tally_opening]
    exact (List.append_nil _).symm

theorem Exchange.Retries.counts_eq (hr : x.Retries t budget here attempts made there) :
    made = (callsOf attempts).flatMap x.tally := by
  induction hr with
  | refl here => rfl
  | head _ ha _ ih => rw [callsOf_cons, List.flatMap_append, ← ih, ← Exchange.counts_attempt ha]

/-! ## 2. The steps of a run -/

/-- The steps of the loop from `here` on in `limit` attempts at most, whether or not it is over
after them. -/
def Exchange.countsFrom (x : Exchange) (t : Transport σ) (budget : Budget) :
    (limit : Nat) → Standing σ → List Count
  | 0, _ => []
  | limit + 1, here =>
    if budget.isExhausted here.now then [.exchangeTimedOut]
    else
      match x.attempt t here with
      | (_, counts, .final ..) => counts
      | (_, counts, .retry now buffer s) =>
        counts ++ x.countsFrom t budget limit (x.next budget here now buffer s)

/-- The steps of a run in `limit` attempts at most, whether or not it is over after them. -/
def Exchange.counts (x : Exchange) (t : Transport σ) (limit : Nat) (now : Instant) (s : σ) :
    List Count :=
  .exchangeStarted :: x.countsFrom t (x.budget now) limit (x.first now s)

/-- What is counted last, if the time is spent. -/
def lateCounts (result : Except Error Bytes) : List Count :=
  if result = .error .timeout then [.exchangeTimedOut] else []

theorem Exchange.Retries.countsFrom (hr : x.Retries t budget here attempts made there)
    (more : Nat) :
    x.countsFrom t budget (attempts.length + more) here =
      made ++ x.countsFrom t budget more there := by
  induction hr with
  | refl here => simp
  | head hx ha _ ih =>
    rw [List.length_cons, Nat.add_right_comm, Exchange.countsFrom, hx, ha]
    simpa using ih

theorem Exchange.Ends.countsFrom (he : x.Ends t budget there last) (more : Nat) :
    x.countsFrom t budget (more + 1) there = last.counts := by
  cases he with
  | spent hx => simp [Exchange.countsFrom, hx]
  | final hx ha => simp [Exchange.countsFrom, hx, ha]

theorem Exchange.Ends.counts_eq (he : x.Ends t budget there last) :
    last.counts = last.calls.flatMap x.tally ++ lateCounts last.result := by
  cases he with
  | spent hx => rfl
  | final hx ha =>
    simp [Run.calls, lateCounts, Exchange.ne_timeout_of_final ha, Exchange.counts_attempt ha]

/-- A run that is over counts that it began, the tallies of its calls, and that it is out of time if
it is. -/
theorem Exchange.counts_eq_of_run (h : x.run t limit now s = some run) :
    run.counts =
      .exchangeStarted :: (run.calls.flatMap x.tally ++ lateCounts run.result) := by
  obtain ⟨attempts, made, there, last, hr, -, he, rfl⟩ := Exchange.run_eq_some_iff.mp h
  simp [Run.after, Run.calls, hr.counts_eq, he.counts_eq]

/-- The steps of a run that is over. -/
theorem Exchange.counts_of_run (h : x.run t limit now s = some run) :
    x.counts t limit now s = run.counts := by
  obtain ⟨attempts, made, there, last, hr, hlt, he, rfl⟩ := Exchange.run_eq_some_iff.mp h
  obtain ⟨more, rfl⟩ := Nat.exists_eq_add_of_lt hlt
  rw [Exchange.counts, Nat.add_assoc, hr.countsFrom, he.countsFrom]
  rfl

/-- The steps of a run that is not over. -/
theorem Exchange.counts_of_none (h : x.run t limit now s = none) :
    x.counts t limit now s =
      .exchangeStarted :: (callsOf (x.attempts t limit now s)).flatMap x.tally := by
  obtain ⟨attempts, made, there, hr, rfl⟩ := Exchange.run_eq_none_iff.mp h
  rw [Exchange.attempts_of_retries hr, ← hr.counts_eq, Exchange.counts,
    ← Nat.add_zero attempts.length, hr.countsFrom]
  simp [Exchange.countsFrom]

/-! ## 3. Beginnings and ends -/

/-- Whether a step counts the end of an exchange. -/
def Count.isEnd : Count → Bool
  | .exchangeSucceeded => true
  | .exchangeTimedOut => true
  | .exchangeFailed => true
  | _ => false

/-- The step that counts the end of an exchange with the given result. -/
def endCount : Except Error Bytes → Count
  | .ok _ => .exchangeSucceeded
  | .error .timeout => .exchangeTimedOut
  | .error _ => .exchangeFailed

theorem isEnd_endCount (result : Except Error Bytes) : (endCount result).isEnd = true := by
  unfold endCount
  split <;> rfl

/-- Steps that neither begin nor end an exchange. -/
def Quiet (counts : List Count) : Prop := ∀ c ∈ counts, c ≠ .exchangeStarted ∧ c.isEnd = false

theorem Quiet.append {first rest : List Count} (hfirst : Quiet first) (hrest : Quiet rest) :
    Quiet (first ++ rest) := by
  intro c hc
  rcases List.mem_append.mp hc with hc | hc
  · exact hfirst c hc
  · exact hrest c hc

theorem Quiet.of_prefix {first body : List Count} (h : Quiet body) (hfirst : first <+: body) :
    Quiet first := fun c hc => h c (hfirst.subset hc)

theorem quiet_received (size : Nat) : Quiet (Count.received size) := by
  simp [Quiet, Count.received, Count.isEnd]

/-- A call that decides nothing is quiet. -/
theorem Exchange.quiet_tally (h : x.verdict call = none) : Quiet (x.tally call) := by
  rcases call with _ | ⟨datagram, e | written⟩ | ⟨failure | datagram⟩
  · simp [Quiet, Exchange.tally]
  · cases h
  · by_cases hwhole : written = datagram.length
    · simp [Quiet, Exchange.tally, hwhole, Count.sent, Count.isEnd]
    · simp [Exchange.verdict, hwhole] at h
  · simp [Quiet, Exchange.tally]
  · rw [Exchange.tally_receive_of_not_accepts (Exchange.verdict_receive_eq_none_iff.mp h)]
    exact (quiet_received _).append (by simp [Quiet, Count.isEnd])

theorem Exchange.Undecided.quiet (h : x.Undecided calls) : Quiet (calls.flatMap x.tally) := by
  intro c hc
  obtain ⟨call, hcall, hc⟩ := List.mem_flatMap.mp hc
  exact Exchange.quiet_tally (h call hcall) c hc

/-- The call that decides a run counts its end, and this last. -/
theorem Exchange.Decides.exists_tally (h : x.Decides call result) :
    ∃ body, Quiet body ∧ x.tally call = body ++ [endCount result] := by
  cases h with
  | refused => exact ⟨[], by simp [Quiet], rfl⟩
  | short ne => exact ⟨[], by simp [Quiet], if_neg ne⟩
  | accepted accepts =>
    exact ⟨_, quiet_received _, Exchange.tally_receive_of_accepts accepts⟩

/-- What a run counts behind its beginning is quiet but for the end. -/
theorem Exchange.Concluded.exists_tally (h : x.Concluded calls result) :
    ∃ body, Quiet body ∧
      calls.flatMap x.tally ++ lateCounts result = body ++ [endCount result] := by
  cases h with
  | spent undecided => exact ⟨_, undecided.quiet, rfl⟩
  | @decided earlier call _ undecided verdict =>
    have hdecides := Exchange.verdict_eq_some_iff.mp verdict
    obtain ⟨body, hbody, htally⟩ := hdecides.exists_tally
    have hlate : lateCounts result = [] := by
      cases hdecides <;> exact if_neg (by simp)
    refine ⟨earlier.flatMap x.tally ++ body, undecided.quiet.append hbody, ?_⟩
    rw [hlate, List.append_nil, List.flatMap_append, List.flatMap_singleton, htally,
      List.append_assoc]

/-- **A run counts its beginning first and its end last**, if it has one, and neither in between. -/
theorem Exchange.exists_counts_eq (x : Exchange) (t : Transport σ) (limit : Nat) (now : Instant)
    (s : σ) :
    ∃ body, Quiet body ∧
      (x.counts t limit now s = .exchangeStarted :: body ∨
        ∃ result, x.counts t limit now s = .exchangeStarted :: (body ++ [endCount result])) := by
  cases h : x.run t limit now s with
  | none =>
    obtain ⟨-, undecided⟩ := Exchange.run_eq_none_iff_undecided.mp h
    exact ⟨_, undecided.quiet, .inl (Exchange.counts_of_none h)⟩
  | some run =>
    obtain ⟨body, hbody, heq⟩ := (Exchange.concluded_of_run h).exists_tally
    refine ⟨body, hbody, .inr ⟨run.result, ?_⟩⟩
    rw [Exchange.counts_of_run h, Exchange.counts_eq_of_run h, heq]

end ServerDiscovery
