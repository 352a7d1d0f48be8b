import Mathlib.Algebra.BigOperators.Group.Finset.Piecewise
import Mathlib.Logic.Relation
import ServerDiscovery.Exchange.Script
import ServerDiscovery.Proofs.Exchange.Counts
import ServerDiscovery.Proofs.Metrics.Amounts

/-! # The counters balance

Exchanges that run at the same time count into the same counters, one step at a time and in any
order (`Counting.Step`).  Each of them makes its own steps in their order; so at any time it has
made some first part of them, and `Progress` says what such a part looks like: nothing, a beginning
without an end, or a beginning and one end.

`Counting.Reaches.sound` is the invariant: every counter has grown by what the steps made so far add
to it.  The balance of the counters follows, because it holds of each exchange by itself
(`Progress.amounts_exchangesTotal`), and because what an exchange has counted when it is over can be
read off its calls (`Exchange.counts_eq_of_run`).
-/

namespace ServerDiscovery

/-! ## 1. Exchanges that share their counters -/

/-- An exchange, with all that decides what becomes of it. -/
structure Session where
  {σ : Type}
  exchange : Exchange
  transport : Transport σ
  start : Instant
  state : σ

/-- The run of an exchange; `none` if it is not over after `limit` attempts. -/
def Session.run (session : Session) (limit : Nat) : Option (Run session.σ) :=
  session.exchange.run session.transport limit session.start session.state

/-- The steps of counting of an exchange in `limit` attempts at most. -/
def Session.counts (session : Session) (limit : Nat) : List Count :=
  session.exchange.counts session.transport limit session.start session.state

/-- The counters, and the steps that each exchange has made so far. -/
structure Counting (n : Nat) where
  metrics : Metrics
  made : Fin n → List Count

/-- No exchange has made a step. -/
def Counting.start {n : Nat} (metrics : Metrics) : Counting n := ⟨metrics, fun _ => []⟩

variable {n : Nat} {sessions : Fin n → Session} {initial : Metrics} {state next : Counting n}

/-- One of the exchanges makes its next step. -/
inductive Counting.Step (sessions : Fin n → Session) (state : Counting n) : Counting n → Prop
  | count (i : Fin n) {c : Count} {limit : Nat}
      (next : state.made i ++ [c] <+: (sessions i).counts limit) :
      Step sessions state
        ⟨state.metrics.add c, Function.update state.made i (state.made i ++ [c])⟩

/-- The steps of the exchanges in any order. -/
abbrev Counting.Reaches (sessions : Fin n → Session) : Counting n → Counting n → Prop :=
  Relation.ReflTransGen (Counting.Step sessions)

/-- What holds at all times: each exchange has made a first part of its steps, and the counters have
grown by what these add to them. -/
structure Counting.Sound (sessions : Fin n → Session) (initial : Metrics) (state : Counting n) :
    Prop where
  made_prefix : ∀ i, ∃ limit, state.made i <+: (sessions i).counts limit
  read_eq : ∀ counter, state.metrics.read counter =
    initial.read counter + ∑ i, amounts counter (state.made i)

/-- One step adds its amount to the amounts of all exchanges together. -/
theorem sum_amounts_update (counter : Counter) (made : Fin n → List Count) (i : Fin n) (c : Count) :
    ∑ j, amounts counter (Function.update made i (made i ++ [c]) j) =
      ∑ j, amounts counter (made j) + c.amount counter := by
  simp only [Function.apply_update fun _ => amounts counter, amounts_append, amounts_cons,
    amounts_nil, add_zero, sum_update_add]

theorem Counting.Step.sound (h : Counting.Step sessions state next)
    (hs : state.Sound sessions initial) : next.Sound sessions initial := by
  cases h with
  | @count i c limit hnext =>
    constructor
    · intro j
      by_cases hj : j = i
      · subst hj
        exact ⟨limit, by simpa using hnext⟩
      · obtain ⟨limit, hprefix⟩ := hs.made_prefix j
        exact ⟨limit, by simpa [hj] using hprefix⟩
    · intro counter
      rw [Metrics.read_add, hs.read_eq counter, sum_amounts_update, add_assoc]

/-- **The counters have grown by what was counted.** -/
theorem Counting.Reaches.sound (h : Counting.Reaches sessions (.start initial) state) :
    state.Sound sessions initial := by
  induction h with
  | refl => exact ⟨fun i => ⟨0, List.nil_prefix⟩, fun counter => by simp [Counting.start]⟩
  | tail _ hstep ih => exact hstep.sound ih

/-- An exchange can go on alone. -/
theorem Counting.exists_reaches_of_prefix {i : Fin n} {more : List Count} {limit : Nat}
    (h : state.made i ++ more <+: (sessions i).counts limit) :
    ∃ next, Counting.Reaches sessions state next ∧
      next.made = Function.update state.made i (state.made i ++ more) := by
  induction more generalizing state with
  | nil => exact ⟨state, .refl, by simp⟩
  | cons c more ih =>
    rw [List.append_cons] at h
    obtain ⟨after, hstep, hafter⟩ : ∃ after, Counting.Step sessions state after ∧
        after.made = Function.update state.made i (state.made i ++ [c]) :=
      ⟨_, .count i ((List.prefix_append _ more).trans h), rfl⟩
    have hself : after.made i = state.made i ++ [c] := by simp [hafter]
    rw [← hself] at h
    obtain ⟨next, hreaches, hmade⟩ := ih h
    exact ⟨next, .head hstep hreaches, by simp [hmade, hafter]⟩

/-- Any first parts of the steps of the exchanges are what they have made at some time. -/
theorem Counting.exists_reaches (initial : Metrics) {target : Fin n → List Count}
    (h : ∀ i, ∃ limit, target i <+: (sessions i).counts limit) :
    ∃ state, Counting.Reaches sessions (.start initial) state ∧ state.made = target := by
  -- One exchange after the other makes its part.
  suffices hpart : ∀ done : Finset (Fin n), ∃ state,
      Counting.Reaches sessions (.start initial) state ∧
        state.made = fun i => if i ∈ done then target i else [] by
    simpa using hpart Finset.univ
  intro done
  induction done using Finset.induction_on with
  | empty => exact ⟨.start initial, .refl, rfl⟩
  | insert i done hi ih =>
    obtain ⟨state, hreaches, hmade⟩ := ih
    have hnone : state.made i = [] := by simp [hmade, hi]
    obtain ⟨limit, hlimit⟩ := h i
    rw [← List.nil_append (target i), ← hnone] at hlimit
    obtain ⟨next, hmore, hnext⟩ := Counting.exists_reaches_of_prefix hlimit
    refine ⟨next, hreaches.trans hmore, ?_⟩
    rw [hnext, hnone, hmade, List.nil_append, update_ite_insert]

/-- By how much a counter has grown. -/
def Counting.growth (state : Counting n) (initial : Metrics) (counter : Counter) : UInt64 :=
  state.metrics.read counter - initial.read counter

theorem Counting.Sound.growth_eq (hs : state.Sound sessions initial) (counter : Counter) :
    state.growth initial counter = ∑ i, amounts counter (state.made i) := by
  rw [Counting.growth, hs.read_eq counter, add_sub_cancel_left]

/-! ## 2. How far an exchange is -/

/-- The steps that an exchange can have made. -/
inductive Progress : List Count → Prop
  /-- It has not begun. -/
  | unbegun : Progress []
  /-- It has begun and not ended. -/
  | begun {body : List Count} (quiet : Quiet body) : Progress (.exchangeStarted :: body)
  /-- It has ended. -/
  | ended {body : List Count} (quiet : Quiet body) (result : Except Error Bytes) :
      Progress (.exchangeStarted :: (body ++ [endCount result]))

/-- Whether an exchange has counted its beginning, and not its end. -/
def Underway (made : List Count) : Prop := made ≠ [] ∧ ∀ c ∈ made, c.isEnd = false

instance : DecidablePred Underway := fun made =>
  inferInstanceAs (Decidable (made ≠ [] ∧ ∀ c ∈ made, c.isEnd = false))

variable {made body : List Count} {counter : Counter}

theorem Session.progress {session : Session} {limit : Nat} (h : made <+: session.counts limit) :
    Progress made := by
  obtain ⟨body, hbody, heq | ⟨result, heq⟩⟩ := session.exchange.exists_counts_eq
    session.transport limit session.start session.state
  · rw [Session.counts, heq] at h
    rcases List.prefix_cons_iff.mp h with rfl | ⟨first, rfl, hfirst⟩
    · exact .unbegun
    · exact .begun (hbody.of_prefix hfirst)
  · rw [Session.counts, heq] at h
    rcases List.prefix_cons_iff.mp h with rfl | ⟨first, rfl, hfirst⟩
    · exact .unbegun
    · rcases List.prefix_concat_iff.mp hfirst with rfl | hfirst
      · exact .ended hbody result
      · exact .begun (hbody.of_prefix hfirst)

/-- Whether a counter counts beginnings or ends of exchanges. -/
def Counter.OfExchanges (counter : Counter) : Prop :=
  counter = .exchangesTotal ∨ counter = .exchangesSuccess ∨ counter = .exchangesTimedOut ∨
    counter = .exchangesFailed

/-- Quiet steps leave the counters of beginnings and ends alone. -/
theorem Quiet.amounts_eq_zero (h : Quiet body) (hcounter : counter.OfExchanges) :
    amounts counter body = 0 := by
  refine ServerDiscovery.amounts_eq_zero fun c hc => ?_
  obtain ⟨hstart, hend⟩ := h c hc
  rcases hcounter with rfl | rfl | rfl | rfl <;> cases c <;>
    first | rfl | exact absurd rfl hstart | cases hend

theorem Quiet.filter_isEnd (h : Quiet body) : body.filter Count.isEnd = [] :=
  List.filter_eq_nil_iff.mpr fun c hc => by simp [(h c hc).2]

/-- What an exchange under way adds to a counter of beginnings or ends. -/
theorem Quiet.amounts_begun (h : Quiet body) (hcounter : counter.OfExchanges) :
    amounts counter (.exchangeStarted :: body) = Count.exchangeStarted.amount counter := by
  simp [h.amounts_eq_zero hcounter]

/-- What an exchange that is over adds to a counter of beginnings or ends. -/
theorem Quiet.amounts_ended (h : Quiet body) (hcounter : counter.OfExchanges)
    (result : Except Error Bytes) :
    amounts counter (.exchangeStarted :: (body ++ [endCount result])) =
      Count.exchangeStarted.amount counter + (endCount result).amount counter := by
  simp [h.amounts_eq_zero hcounter]

/-- **Every beginning is matched by an end, unless the exchange is under way.** -/
theorem Progress.amounts_exchangesTotal (h : Progress made) :
    amounts .exchangesTotal made =
      amounts .exchangesSuccess made + amounts .exchangesTimedOut made
        + amounts .exchangesFailed made + if Underway made then 1 else 0 := by
  cases h with
  | unbegun => rfl
  | @begun body quiet =>
    have hunderway : Underway (.exchangeStarted :: body) :=
      ⟨List.cons_ne_nil _ _, List.forall_mem_cons.mpr ⟨rfl, fun c hc => (quiet c hc).2⟩⟩
    rw [if_pos hunderway, quiet.amounts_begun (.inl rfl), quiet.amounts_begun (.inr (.inl rfl)),
      quiet.amounts_begun (.inr (.inr (.inl rfl))), quiet.amounts_begun (.inr (.inr (.inr rfl)))]
    rfl
  | @ended body quiet result =>
    have hover : ¬ Underway (.exchangeStarted :: (body ++ [endCount result])) := fun h => by
      have := h.2 (endCount result) (by simp)
      rw [isEnd_endCount] at this
      cases this
    rw [if_neg hover, quiet.amounts_ended (.inl rfl), quiet.amounts_ended (.inr (.inl rfl)),
      quiet.amounts_ended (.inr (.inr (.inl rfl))), quiet.amounts_ended (.inr (.inr (.inr rfl)))]
    unfold endCount
    split <;> rfl

/-- No exchange counts two ends. -/
theorem Progress.countP_isEnd_le (h : Progress made) : made.countP Count.isEnd ≤ 1 := by
  cases h with
  | unbegun => exact Nat.zero_le 1
  | begun quiet =>
    rw [List.countP_eq_length_filter, List.filter_cons_of_neg (by simp [Count.isEnd]),
      quiet.filter_isEnd]
    exact Nat.zero_le 1
  | ended quiet result =>
    rw [List.countP_eq_length_filter, List.filter_cons_of_neg (by simp [Count.isEnd]),
      List.filter_append, quiet.filter_isEnd, List.nil_append]
    exact List.length_filter_le _ _

/-! ## 3. What an exchange has counted when it is over -/

section Over

variable {σ : Type} {x : Exchange} {t : Transport σ} {limit : Nat} {now : Instant} {s : σ}
  {run : Run σ} {calls : List Call}

/-- The datagram of a send that went out whole. -/
def Call.delivered? : Call → Option Bytes
  | .send datagram (.ok written) => if written = datagram.length then some datagram else none
  | _ => none

/-- Whether the result is the error of a send. -/
def isWriteError : Except Error Bytes → Bool
  | .error (.io _) => true
  | .error .shortWrite => true
  | _ => false

/-- An exchange that is over has counted one beginning and one end. -/
theorem Exchange.amounts_of_run (h : x.run t limit now s = some run)
    (hcounter : counter.OfExchanges) :
    amounts counter run.counts =
      Count.exchangeStarted.amount counter + (endCount run.result).amount counter := by
  obtain ⟨body, quiet, heq⟩ := (Exchange.concluded_of_run h).exists_tally
  rw [Exchange.counts_eq_of_run h, heq, quiet.amounts_ended hcounter]

theorem Exchange.amounts_exchangesSuccess (h : x.run t limit now s = some run) :
    amounts .exchangesSuccess run.counts = wrapped (if run.result.isOk then 1 else 0) := by
  rw [Exchange.amounts_of_run h (.inr (.inl rfl))]
  obtain ⟨_, hresult⟩ | ⟨_, hresult⟩ | hresult | hresult :=
    (Exchange.concluded_of_run h).result_cases <;> rw [hresult] <;> rfl

theorem Exchange.amounts_exchangesTimedOut (h : x.run t limit now s = some run) :
    amounts .exchangesTimedOut run.counts =
      wrapped (if run.result = .error .timeout then 1 else 0) := by
  rw [Exchange.amounts_of_run h (.inr (.inr (.inl rfl)))]
  obtain ⟨_, hresult⟩ | ⟨_, hresult⟩ | hresult | hresult :=
    (Exchange.concluded_of_run h).result_cases <;> rw [hresult] <;> rfl

theorem Exchange.amounts_exchangesFailed (h : x.run t limit now s = some run) :
    amounts .exchangesFailed run.counts = wrapped (if isWriteError run.result then 1 else 0) := by
  rw [Exchange.amounts_of_run h (.inr (.inr (.inr rfl)))]
  obtain ⟨_, hresult⟩ | ⟨_, hresult⟩ | hresult | hresult :=
    (Exchange.concluded_of_run h).result_cases <;> rw [hresult] <;> rfl

/-- Only beginnings and late ends are counted without a call. -/
theorem Exchange.amounts_of_calls (h : x.run t limit now s = some run)
    (htotal : counter ≠ .exchangesTotal) (hlate : counter ≠ .exchangesTimedOut) :
    amounts counter run.counts = amounts counter (run.calls.flatMap x.tally) := by
  have hstarted : Count.exchangeStarted.amount counter = 0 := by
    cases counter <;> first | rfl | exact absurd rfl htotal
  have htimedOut : Count.exchangeTimedOut.amount counter = 0 := by
    cases counter <;> first | rfl | exact absurd rfl hlate
  rw [Exchange.counts_eq_of_run h, amounts_cons, amounts_append, hstarted, zero_add, lateCounts]
  split <;> simp [htimedOut]

/-- What several calls count, if each counts a measure of its datagram. -/
theorem amounts_flatMap_tally {datagram? : Call → Option Bytes} {measure : Bytes → Nat}
    (h : ∀ call, amounts counter (x.tally call) =
      wrapped (((datagram? call).map measure).getD 0)) (calls : List Call) :
    amounts counter (calls.flatMap x.tally) =
      wrapped (((calls.filterMap datagram?).map measure).sum) := by
  induction calls with
  | nil => rfl
  | cons call calls ih =>
    rw [List.flatMap_cons, amounts_append, ih, h call, ← map_add, List.filterMap_cons]
    cases datagram? call <;> simp

/-- A call counts as sent the datagram that went out whole, if one did. -/
theorem Exchange.tally_sent (x : Exchange) (call : Call) :
    amounts .datagramsSent (x.tally call) = wrapped ((call.delivered?.map fun _ => 1).getD 0) ∧
      amounts .bytesSent (x.tally call) =
        wrapped ((call.delivered?.map List.length).getD 0) := by
  rcases call with _ | ⟨datagram, e | written⟩ | ⟨failure | datagram⟩
  · exact ⟨rfl, rfl⟩
  · exact ⟨rfl, rfl⟩
  · by_cases hwhole : written = datagram.length
    · simp only [Exchange.tally, Call.delivered?, hwhole, if_true]
      exact amounts_sent datagram.length
    · simp only [Exchange.tally, Call.delivered?, hwhole, if_false]
      exact ⟨rfl, rfl⟩
  · exact ⟨rfl, rfl⟩
  · simp only [Exchange.tally, amounts_append]
    cases x.accept datagram <;> exact ⟨rfl, rfl⟩

/-- A call counts as received the datagram that was received, if one was, and counts it once more as
accepted or mismatched. -/
theorem Exchange.tally_received (x : Exchange) (call : Call) :
    amounts .bytesReceived (x.tally call) =
        wrapped ((call.received?.map List.length).getD 0) ∧
      amounts .datagramsReceived (x.tally call) =
        amounts .exchangesSuccess (x.tally call)
          + amounts .mismatchedResponses (x.tally call) := by
  rcases call with _ | ⟨datagram, e | written⟩ | ⟨failure | datagram⟩
  · exact ⟨rfl, rfl⟩
  · exact ⟨rfl, rfl⟩
  · by_cases hwhole : written = datagram.length <;>
      simp only [Exchange.tally, hwhole, if_true, if_false] <;> exact ⟨rfl, rfl⟩
  · exact ⟨rfl, rfl⟩
  · have hbytes : ∀ outcome : Count, outcome.amount .bytesReceived = 0 →
        amounts .bytesReceived (Count.received datagram.length ++ [outcome]) =
          wrapped datagram.length := by
      intro outcome hzero
      rw [amounts_append, amounts_received, amounts_cons, hzero, amounts_nil, add_zero, add_zero]
    simp only [Exchange.tally]
    cases x.accept datagram <;> exact ⟨hbytes _ rfl, rfl⟩

theorem Exchange.amounts_datagramsSent (h : x.run t limit now s = some run) :
    amounts .datagramsSent run.counts =
      wrapped (run.calls.filterMap Call.delivered?).length := by
  rw [Exchange.amounts_of_calls h (by simp) (by simp),
    amounts_flatMap_tally fun call => (x.tally_sent call).1]
  simp

theorem Exchange.amounts_bytesSent (h : x.run t limit now s = some run) :
    amounts .bytesSent run.counts =
      wrapped ((run.calls.filterMap Call.delivered?).map List.length).sum := by
  rw [Exchange.amounts_of_calls h (by simp) (by simp),
    amounts_flatMap_tally fun call => (x.tally_sent call).2]

theorem Exchange.amounts_bytesReceived (h : x.run t limit now s = some run) :
    amounts .bytesReceived run.counts =
      wrapped ((receivedIn run.attempts).map List.length).sum := by
  rw [Exchange.amounts_of_calls h (by simp) (by simp),
    amounts_flatMap_tally fun call => (x.tally_received call).1]
  rfl

/-- Every datagram received is accepted or mismatched. -/
theorem Exchange.amounts_datagramsReceived (h : x.run t limit now s = some run) :
    amounts .datagramsReceived run.counts =
      amounts .exchangesSuccess run.counts + amounts .mismatchedResponses run.counts := by
  rw [Exchange.amounts_of_calls h (by simp) (by simp),
    Exchange.amounts_of_calls h (by simp) (by simp),
    Exchange.amounts_of_calls h (by simp) (by simp)]
  induction run.calls with
  | nil => rfl
  | cons call calls ih =>
    rw [List.flatMap_cons, amounts_append, amounts_append, amounts_append, ih,
      (x.tally_received call).2]
    exact add_add_add_comm ..

end Over

/-! ## 4. The balance -/

/-- The number of exchanges with a property is the sum of ones. -/
theorem sum_wrapped_ite (p : Fin n → Prop) [DecidablePred p] :
    ∑ i, wrapped (if p i then 1 else 0) = wrapped (Finset.univ.filter p).card := by
  rw [← map_sum, Finset.card_filter]

/-- **The counters balance.**  At all times more exchanges have been counted in total than as ended,
and the difference is the number of exchanges that are under way; none is counted as ended twice.
When all exchanges are over, the three kinds of ends have been counted as often as they were
results, every datagram received has been counted as accepted or as mismatched, and the datagrams
and bytes are those that were received and those that went out whole.  All this is as counters show
it, which wrap. -/
theorem Counting.balanced (sessions : Fin n → Session) (initial : Metrics) (state : Counting n)
    (h : Counting.Reaches sessions (.start initial) state) :
    (state.growth initial .exchangesTotal =
      state.growth initial .exchangesSuccess + state.growth initial .exchangesTimedOut
        + state.growth initial .exchangesFailed
        + UInt64.ofNat (Finset.univ.filter fun i => Underway (state.made i)).card) ∧
    (∀ i, (state.made i).countP Count.isEnd ≤ 1) ∧
    ∀ runs : (i : Fin n) → Run (sessions i).σ,
      (∀ i, (∃ limit, (sessions i).run limit = some (runs i)) ∧
        state.made i = (runs i).counts) →
      state.growth initial .exchangesSuccess =
        UInt64.ofNat (Finset.univ.filter fun i => (runs i).result.isOk).card ∧
      state.growth initial .exchangesTimedOut =
        UInt64.ofNat (Finset.univ.filter fun i => (runs i).result = .error .timeout).card ∧
      state.growth initial .exchangesFailed =
        UInt64.ofNat (Finset.univ.filter fun i => isWriteError (runs i).result).card ∧
      state.growth initial .datagramsReceived =
        state.growth initial .exchangesSuccess + state.growth initial .mismatchedResponses ∧
      state.growth initial .bytesReceived =
        UInt64.ofNat (∑ i, ((receivedIn (runs i).attempts).map List.length).sum) ∧
      state.growth initial .datagramsSent =
        UInt64.ofNat (∑ i, ((runs i).calls.filterMap Call.delivered?).length) ∧
      state.growth initial .bytesSent =
        UInt64.ofNat (∑ i, (((runs i).calls.filterMap Call.delivered?).map List.length).sum) := by
  have hs := h.sound
  have hprogress : ∀ i, Progress (state.made i) := by
    intro i
    obtain ⟨limit, hprefix⟩ := hs.made_prefix i
    exact Session.progress hprefix
  refine ⟨?_, fun i => (hprogress i).countP_isEnd_le, fun runs hruns => ?_⟩
  · simp only [hs.growth_eq, fun i => (hprogress i).amounts_exchangesTotal,
      Finset.sum_add_distrib]
    congr 1
    rw [← wrapped_apply, ← sum_wrapped_ite]
    refine Finset.sum_congr rfl fun i _ => ?_
    split <;> rfl
  · have hmade : ∀ i, state.made i = (runs i).counts := fun i => (hruns i).2
    choose limit hrun using fun i => (hruns i).1
    simp only [hs.growth_eq, hmade, ← wrapped_apply, ← sum_wrapped_ite, map_sum]
    refine ⟨?_, ?_, ?_, ?_, ?_, ?_, ?_⟩
    · exact Finset.sum_congr rfl fun i _ => Exchange.amounts_exchangesSuccess (hrun i)
    · exact Finset.sum_congr rfl fun i _ => Exchange.amounts_exchangesTimedOut (hrun i)
    · exact Finset.sum_congr rfl fun i _ => Exchange.amounts_exchangesFailed (hrun i)
    · rw [← Finset.sum_add_distrib]
      exact Finset.sum_congr rfl fun i _ => Exchange.amounts_datagramsReceived (hrun i)
    · exact Finset.sum_congr rfl fun i _ => Exchange.amounts_bytesReceived (hrun i)
    · exact Finset.sum_congr rfl fun i _ => Exchange.amounts_datagramsSent (hrun i)
    · exact Finset.sum_congr rfl fun i _ => Exchange.amounts_bytesSent (hrun i)

/-- A line that takes the first two copies of a request without an answer, and three bytes of the
next. -/
def cutOff : Line ScriptedPeer :=
  { peer := { token := { first := [.silence, .silence, .cutsShort 3] } } }

/-- Two exchanges for tokens.  One is answered, and mismatches before.  The other fails in the
middle of its second burst. -/
def answeredAndCutOff : Fin 2 → Session
  | 0 => ⟨tokenExchange ⟨1, 2, 3, 4⟩ (.ofSeconds 1 0) singleCopies,
      Line.transport ScriptedPeer.react, 0, lateGrant⟩
  | 1 => ⟨tokenExchange ⟨5, 6, 7, 8⟩ (.ofSeconds 1 0) { RetryPolicy.default with tokenGrowth := 2 },
      Line.transport ScriptedPeer.react, 0, cutOff⟩

theorem isSome_run_answeredAndCutOff : ∀ i, ((answeredAndCutOff i).run 2).isSome := by
  decide +kernel

/-- The runs of the two exchanges. -/
def answeredAndCutOffRuns (i : Fin 2) : Run (answeredAndCutOff i).σ :=
  ((answeredAndCutOff i).run 2).get (isSome_run_answeredAndCutOff i)

/-- The copies that went out before the failure are counted, and the one cut off is not. -/
theorem Counting.balanced_answeredAndCutOff :
    ∃ state, Counting.Reaches answeredAndCutOff (.start {}) state ∧
      [.exchangesTotal, .exchangesSuccess, .exchangesTimedOut, .exchangesFailed, .datagramsReceived,
          .mismatchedResponses, .bytesReceived, .datagramsSent, .bytesSent].map (state.growth {}) =
        [2, 1, 0, 1, 2, 1, 28, 4, 2076] := by
  have hruns : ∀ i, (answeredAndCutOff i).run 2 = some (answeredAndCutOffRuns i) :=
    fun i => (Option.some_get (isSome_run_answeredAndCutOff i)).symm
  have hparts : ∀ i, ∃ limit,
      (answeredAndCutOffRuns i).counts <+: (answeredAndCutOff i).counts limit := by
    intro i
    refine ⟨2, ?_⟩
    rw [Session.counts, Exchange.counts_of_run (hruns i)]
  obtain ⟨state, hreaches, hmade⟩ := Counting.exists_reaches {} hparts
  obtain ⟨htotal, -, hover⟩ := Counting.balanced answeredAndCutOff {} state hreaches
  obtain ⟨hsuccess, htimedOut, hfailed, hreceived, hbytesReceived, hsent, hbytesSent⟩ :=
    hover answeredAndCutOffRuns fun i => ⟨⟨2, hruns i⟩, congrFun hmade i⟩
  have hmismatched : state.growth {} .mismatchedResponses = 1 := by
    rw [hreaches.sound.growth_eq, hmade]
    decide +kernel
  have hunderway : (Finset.univ.filter fun i => Underway (state.made i)).card = 0 := by
    rw [hmade]
    decide +kernel
  rw [hunderway] at htotal
  rw [hmismatched] at hreceived
  refine ⟨state, hreaches, ?_⟩
  simp only [List.map_cons, List.map_nil, htotal, hreceived, hsuccess, htimedOut, hfailed,
    hmismatched, hbytesReceived, hsent, hbytesSent]
  decide +kernel

end ServerDiscovery
