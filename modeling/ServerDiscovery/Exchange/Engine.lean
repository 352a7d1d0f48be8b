import ServerDiscovery.Exchange.Policy
import ServerDiscovery.Exchange.Transport
import ServerDiscovery.Metrics

/-! # The retry engine

An exchange sends one request until one datagram is accepted as its response.  It is a loop of
attempts.  An attempt sets a deadline, sends a burst of copies, waits for a single datagram and
judges it.  The loop has three ways out:

* a datagram is accepted, and is the result;
* a send fails or is cut short, which aborts the exchange at once;
* the budget is spent when an attempt would begin.

Whatever else happens (silence, a failed receive, a datagram of the wrong kind) costs an attempt and
nothing more.  There is no limit on the number of attempts, only on time, and time is up to the
transport; so `Exchange.run` takes the number of attempts after which it gives no answer yet.

All attempts of a run share one receive buffer, which is not cleared between them.

A run keeps what it did: its attempts, and every step of its counting, in order.
-/

namespace ServerDiscovery

/-- Why a send aborts an exchange. -/
inductive SendFailure where
  | refused (error : IoError)
  /-- Only `written` bytes went out. -/
  | short (written : Nat)
deriving DecidableEq, Repr

/-- The error that a failed send ends an exchange with. -/
def SendFailure.toError : SendFailure → Error
  | .refused e => .io e
  | .short _ => .shortWrite

/-- What an attempt did. -/
structure Attempt where
  /-- The datagram that was sent. -/
  request : Bytes
  started : Instant
  deadline : Instant
  /-- The number of copies that went out whole. -/
  delivered : Nat
  /-- Why the copy after those did not. -/
  failure : Option SendFailure
  /-- What was received; `none` if a send failed. -/
  received : Option (Except ReceiveFailure Bytes)

/-- The number of sends, a failed one included. -/
def Attempt.sends (a : Attempt) : Nat := a.delivered + if a.failure.isSome then 1 else 0

/-- A request and how its response is recognized. -/
structure Exchange where
  request : Bytes
  /-- Why a datagram is no response to the request. -/
  accept : Bytes → Except KindError Unit
  timeout : Duration
  growth : Float
  policy : RetryPolicy

/-- What a finished run leaves behind. -/
structure Run (σ : Type) where
  result : Except Error Bytes
  attempts : List Attempt
  /-- The steps of counting, in order. -/
  counts : List Count
  now : Instant
  state : σ

/-! ## 1. Bursts -/

/-- The outcome of a burst. -/
structure Burst (σ : Type) where
  delivered : Nat
  failure : Option SendFailure
  state : σ

/-- Send `copies` copies of a datagram, up to the first that does not go out whole. -/
def Transport.burst (t : Transport σ) (now : Instant) (datagram : Bytes) :
    (copies : Nat) → σ → Burst σ
  | 0, s => ⟨0, none, s⟩
  | copies + 1, s =>
    match t.send s now datagram with
    | (.error e, s) => ⟨0, some (.refused e), s⟩
    | (.ok written, s) =>
      if written = datagram.length then
        let others := t.burst now datagram copies s
        ⟨others.delivered + 1, others.failure, others.state⟩
      else ⟨0, some (.short written), s⟩

/-! ## 2. Attempts -/

/-- Where a run stands when an attempt begins. -/
structure Standing (σ : Type) where
  now : Instant
  /-- How long the attempt waits. -/
  window : Duration
  /-- The accumulated factor of the burst. -/
  factor : Float
  /-- The receive buffer, with what earlier attempts left in it. -/
  buffer : Bytes
  state : σ

/-- How an attempt ended. -/
inductive AttemptEnd (σ : Type) where
  /-- With the end of the run. -/
  | final (result : Except Error Bytes) (now : Instant) (state : σ)
  /-- With another attempt to make, if there is time. -/
  | retry (now : Instant) (buffer : Bytes) (state : σ)

/-- The counting steps of `copies` whole sends of a datagram of `size` bytes. -/
def sentCounts (copies size : Nat) : List Count := (List.replicate copies (Count.sent size)).flatten

/-- One attempt: what it did, what it counted, and how it ended. -/
def Exchange.attempt (x : Exchange) (t : Transport σ) (here : Standing σ) :
    Attempt × List Count × AttemptEnd σ :=
  let deadline := here.now + here.window.nanos
  let burst := t.burst here.now x.request (x.policy.copies here.factor) here.state
  let attempt : Attempt :=
    { request := x.request, started := here.now, deadline, delivered := burst.delivered,
      failure := burst.failure, received := none }
  let sent := sentCounts burst.delivered x.request.length
  match burst.failure with
  | some failure =>
    (attempt, sent ++ [.exchangeFailed], .final (.error failure.toError) here.now burst.state)
  | none =>
    let reception := t.receive burst.state here.now deadline x.policy.maxResponseSize.toNat
    let attempt := { attempt with received := some reception.outcome }
    match reception.outcome with
    | .error _ => (attempt, sent, .retry reception.now here.buffer reception.state)
    | .ok datagram =>
      let buffer := overwrite here.buffer datagram
      -- Behind the datagram the buffer may hold the rest of a longer one.
      let response := buffer.take datagram.length
      let counts := sent ++ Count.received datagram.length
      match x.accept response with
      | .ok () =>
        (attempt, counts ++ [.exchangeSucceeded],
          .final (.ok response) reception.now reception.state)
      | .error _ =>
        (attempt, counts ++ [.responseMismatched], .retry reception.now buffer reception.state)

/-! ## 3. Runs -/

/-- The time that a run may take. -/
def Exchange.budget (x : Exchange) (now : Instant) : Budget :=
  Budget.start now x.timeout x.policy.minTimeout

/-- Where a run stands at its beginning. -/
def Exchange.first (x : Exchange) (now : Instant) (s : σ) : Standing σ :=
  { now, window := x.policy.minTimeout, factor := 1.0,
    buffer := List.replicate x.policy.maxResponseSize.toNat 0, state := s }

/-- Where a run stands after an attempt that was made at `here` and has to be made again. -/
def Exchange.next (x : Exchange) (budget : Budget) (here : Standing σ) (now : Instant)
    (buffer : Bytes) (state : σ) : Standing σ :=
  { now, window := nextWindow here.window (budget.remaining now), factor := here.factor * x.growth,
    buffer, state }

/-- The loop from `here` on; `none` if it is not over after `limit` attempts. -/
def Exchange.loop (x : Exchange) (t : Transport σ) (budget : Budget) :
    (limit : Nat) → Standing σ → Option (Run σ)
  | 0, _ => none
  | limit + 1, here =>
    if budget.isExhausted here.now then
      some { result := .error .timeout, attempts := [], counts := [.exchangeTimedOut],
             now := here.now, state := here.state }
    else
      match x.attempt t here with
      | (attempt, counts, .final result now state) =>
        some { result, attempts := [attempt], counts, now, state }
      | (attempt, counts, .retry now buffer state) =>
        (x.loop t budget limit (x.next budget here now buffer state)).map fun rest =>
          { rest with attempts := attempt :: rest.attempts, counts := counts ++ rest.counts }

/-- A run from the time `now` and the state `s` on; `none` if it is not over after `limit`
attempts. -/
def Exchange.run (x : Exchange) (t : Transport σ) (limit : Nat) (now : Instant) (s : σ) :
    Option (Run σ) :=
  (x.loop t (x.budget now) limit (x.first now s)).map fun run =>
    { run with counts := .exchangeStarted :: run.counts }

end ServerDiscovery
