import ServerDiscovery.Exchange.Engine

/-! # What a run asks of its transport

An exchange deals with its transport by three kinds of calls: it sets the deadline of an attempt, it
sends, and it waits for a datagram.  `Attempt.calls` reads the calls of an attempt off the record
that the engine makes of it, in the order in which they are made; `Run.calls` are those of a run.

The record is the engine's own.  `Exchange.run_logged` says that it can be trusted: a transport that
keeps a log of everything it is asked to send and to receive ends with exactly these calls in its
log, and the run is otherwise the same.
-/

namespace ServerDiscovery

variable {σ : Type}

/-! ## 1. Calls -/

/-- Something that is asked of a transport, and what came of it. -/
inductive Call where
  | setDeadline (deadline : Instant)
  /-- The outcome is the number of bytes that went out. -/
  | send (datagram : Bytes) (outcome : Except IoError Nat)
  | receive (outcome : Except ReceiveFailure Bytes)

/-- The datagram that is handed to the transport. -/
def Call.sent? : Call → Option Bytes
  | .send datagram _ => some datagram
  | _ => none

/-- The datagram that the transport hands over. -/
def Call.received? : Call → Option Bytes
  | .receive (.ok datagram) => some datagram
  | _ => none

/-- Whether the call sends or receives. -/
def Call.isTransfer : Call → Bool
  | .setDeadline _ => false
  | .send .. => true
  | .receive _ => true

/-- What the send that failed reported. -/
def SendFailure.outcome : SendFailure → Except IoError Nat
  | .refused e => .error e
  | .short written => .ok written

/-- The sends of a burst: `delivered` whole ones, and the failed one if there is one. -/
def burstCalls (request : Bytes) (delivered : Nat) (failure : Option SendFailure) : List Call :=
  List.replicate delivered (.send request (.ok request.length))
    ++ (failure.map fun f => Call.send request f.outcome).toList

/-- The calls of an attempt, in order. -/
def Attempt.calls (a : Attempt) : List Call :=
  .setDeadline a.deadline
    :: (burstCalls a.request a.delivered a.failure ++ (a.received.map Call.receive).toList)

/-- The calls of several attempts, in order. -/
def callsOf (attempts : List Attempt) : List Call := attempts.flatMap Attempt.calls

/-- The datagrams that were sent in several attempts, failed sends included. -/
def sentIn (attempts : List Attempt) : List Bytes := (callsOf attempts).filterMap Call.sent?

/-- The datagrams that were received in several attempts. -/
def receivedIn (attempts : List Attempt) : List Bytes :=
  (callsOf attempts).filterMap Call.received?

/-- The calls of a run, in order. -/
def Run.calls (run : Run σ) : List Call := callsOf run.attempts

@[simp] theorem callsOf_nil : callsOf [] = [] := rfl

@[simp] theorem callsOf_cons (a : Attempt) (attempts : List Attempt) :
    callsOf (a :: attempts) = a.calls ++ callsOf attempts := rfl

@[simp] theorem callsOf_append (first rest : List Attempt) :
    callsOf (first ++ rest) = callsOf first ++ callsOf rest := List.flatMap_append

@[simp] theorem sentIn_append (first rest : List Attempt) :
    sentIn (first ++ rest) = sentIn first ++ sentIn rest := by
  simp [sentIn]

@[simp] theorem receivedIn_append (first rest : List Attempt) :
    receivedIn (first ++ rest) = receivedIn first ++ receivedIn rest := by
  simp [receivedIn]

/-- An attempt sends nothing but copies of its request. -/
theorem Attempt.filterMap_sent?_calls (a : Attempt) :
    a.calls.filterMap Call.sent? = List.replicate a.sends a.request := by
  have hwhole : (List.replicate a.delivered
      (Call.send a.request (.ok a.request.length))).filterMap Call.sent? =
      List.replicate a.delivered a.request := by
    rw [List.filterMap_replicate_of_some]
    rfl
  have hfailed : ((a.failure.map fun f => Call.send a.request f.outcome).toList).filterMap
      Call.sent? = List.replicate (if a.failure.isSome then 1 else 0) a.request := by
    cases a.failure <;> rfl
  have hreceived : ((a.received.map Call.receive).toList).filterMap Call.sent? = [] := by
    cases a.received <;> rfl
  rw [Attempt.calls, burstCalls, List.filterMap_cons_none rfl, List.filterMap_append,
    List.filterMap_append, hwhole, hfailed, hreceived, List.append_nil,
    List.replicate_append_replicate]
  rfl

/-- Attempts with the same request send nothing but copies of it. -/
theorem sentIn_of_request {attempts : List Attempt} {request : Bytes}
    (h : ∀ a ∈ attempts, a.request = request) :
    ∃ copies, sentIn attempts = List.replicate copies request := by
  induction attempts with
  | nil => exact ⟨0, rfl⟩
  | cons a attempts ih =>
    have ha : a.request = request := h a List.mem_cons_self
    obtain ⟨copies, hrest⟩ := ih fun b hb => h b (List.mem_cons_of_mem a hb)
    refine ⟨a.sends + copies, ?_⟩
    rw [sentIn] at hrest ⊢
    rw [callsOf_cons, List.filterMap_append, a.filterMap_sent?_calls, ha, hrest,
      List.replicate_append_replicate]

/-! ## 2. A transport that keeps a log -/

/-- The transport `t`, with a log of what it is asked to send and to receive. -/
def Transport.logged (t : Transport σ) : Transport (σ × List Call) where
  send := fun (s, log) now datagram =>
    let (outcome, s) := t.send s now datagram
    (outcome, s, log ++ [.send datagram outcome])
  receive := fun (s, log) now deadline size =>
    let reception := t.receive s now deadline size
    { reception with state := (reception.state, log ++ [.receive reception.outcome]) }

/-- The same standing before a transport that has logged `log`. -/
def Standing.logged (here : Standing σ) (log : List Call) : Standing (σ × List Call) :=
  { here with state := (here.state, log) }

/-- The same end of an attempt before a transport that has logged `log`. -/
def AttemptEnd.logged (log : List Call) : AttemptEnd σ → AttemptEnd (σ × List Call)
  | .final result now s => .final result now (s, log)
  | .retry now buffer s => .retry now buffer (s, log)

/-- The same run before a transport that has logged `log`. -/
def Run.logged (run : Run σ) (log : List Call) : Run (σ × List Call) :=
  { run with state := (run.state, log) }

@[simp] theorem Transport.send_logged (t : Transport σ) (s : σ) (log : List Call) (now : Instant)
    (datagram : Bytes) :
    t.logged.send (s, log) now datagram =
      ((t.send s now datagram).1, (t.send s now datagram).2,
        log ++ [.send datagram (t.send s now datagram).1]) := rfl

@[simp] theorem Transport.receive_logged (t : Transport σ) (s : σ) (log : List Call)
    (now deadline : Instant) (size : Nat) :
    t.logged.receive (s, log) now deadline size =
      { t.receive s now deadline size with
        state := ((t.receive s now deadline size).state,
          log ++ [.receive (t.receive s now deadline size).outcome]) } := rfl

/-- A burst logs its sends. -/
theorem Transport.burst_logged (t : Transport σ) (now : Instant) (datagram : Bytes) (copies : Nat)
    (s : σ) (log : List Call) :
    t.logged.burst now datagram copies (s, log) =
      ⟨(t.burst now datagram copies s).delivered, (t.burst now datagram copies s).failure,
        (t.burst now datagram copies s).state,
        log ++ burstCalls datagram (t.burst now datagram copies s).delivered
          (t.burst now datagram copies s).failure⟩ := by
  induction copies generalizing s log with
  | zero => simp [Transport.burst, burstCalls]
  | succ copies ih =>
    rcases h : t.send s now datagram with ⟨e | written, s'⟩
    · simp [Transport.burst, h, burstCalls, SendFailure.outcome]
    · by_cases hw : written = datagram.length
      · simp [Transport.burst, h, hw, ih, burstCalls, List.replicate_succ]
      · simp [Transport.burst, h, hw, burstCalls, SendFailure.outcome]

@[simp] theorem filter_isTransfer_burstCalls (request : Bytes) (delivered : Nat)
    (failure : Option SendFailure) :
    (burstCalls request delivered failure).filter Call.isTransfer =
      burstCalls request delivered failure := by
  refine List.filter_eq_self.mpr fun c hc => ?_
  rcases List.mem_append.mp hc with hc | hc
  · rw [List.eq_of_mem_replicate hc]
    rfl
  · obtain ⟨f, -, rfl⟩ := Option.map_eq_some_iff.mp (Option.mem_toList.mp hc)
    rfl

/-- An attempt logs its transfers. -/
theorem Exchange.attempt_logged (x : Exchange) (t : Transport σ) (here : Standing σ)
    (log : List Call) :
    x.attempt t.logged (here.logged log) =
      ((x.attempt t here).1, (x.attempt t here).2.1,
        (x.attempt t here).2.2.logged
          (log ++ (x.attempt t here).1.calls.filter Call.isTransfer)) := by
  simp only [Exchange.attempt, Standing.logged, Transport.burst_logged]
  rcases t.burst here.now x.request (x.policy.copies here.factor) here.state with
    ⟨delivered, _ | failure, state⟩
  · simp only [Transport.receive_logged]
    rcases t.receive state here.now (here.now + here.window.nanos) x.policy.maxResponseSize.toNat
      with ⟨e | datagram, now, state⟩
    · simp [AttemptEnd.logged, Attempt.calls, List.filter_cons, Call.isTransfer]
    · simp only [take_overwrite]
      cases x.accept datagram <;>
        simp [AttemptEnd.logged, Attempt.calls, List.filter_cons, Call.isTransfer]
  · simp [AttemptEnd.logged, Attempt.calls, Call.isTransfer]

/-- The transfers of the loop are what it logs. -/
theorem Exchange.loop_logged (x : Exchange) (t : Transport σ) (budget : Budget) (limit : Nat)
    (here : Standing σ) (log : List Call) :
    x.loop t.logged budget limit (here.logged log) =
      (x.loop t budget limit here).map fun run =>
        run.logged (log ++ run.calls.filter Call.isTransfer) := by
  induction limit generalizing here log with
  | zero => rfl
  | succ limit ih =>
    by_cases hx : budget.isExhausted here.now
    · simp [Exchange.loop, Standing.logged, hx, Run.logged, Run.calls]
    · have hlog := x.attempt_logged t here log
      have hx' : ¬ budget.isExhausted (here.logged log).now := hx
      rcases h : x.attempt t here with ⟨a, counts, ⟨result, now, s⟩ | ⟨now, buffer, s⟩⟩
      · rw [h] at hlog
        simp [Exchange.loop, hx, hx', h, hlog, AttemptEnd.logged, Run.logged, Run.calls]
      · rw [h] at hlog
        have hnext : x.next budget (here.logged log) now buffer
            (s, log ++ a.calls.filter Call.isTransfer) =
            (x.next budget here now buffer s).logged (log ++ a.calls.filter Call.isTransfer) := rfl
        simp [Exchange.loop, hx, hx', h, hlog, AttemptEnd.logged, hnext, ih, Run.logged, Run.calls,
          Function.comp_def]

/-- **The record of a run is honest.**  Before a transport that logs its transfers a run is the
same, and it ends with the transfers of `Run.calls` in the log. -/
theorem Exchange.run_logged (x : Exchange) (t : Transport σ) (limit : Nat) (now : Instant) (s : σ)
    (log : List Call) :
    x.run t.logged limit now (s, log) =
      (x.run t limit now s).map fun run =>
        run.logged (log ++ run.calls.filter Call.isTransfer) := by
  have hfirst : x.first now (s, log) = (x.first now s).logged log := rfl
  simp [Exchange.run, hfirst, x.loop_logged t, Function.comp_def, Run.logged, Run.calls]

end ServerDiscovery
