import ServerDiscovery.Exchange.Engine
import ServerDiscovery.Message.Token

/-! # The handshake

A query is two exchanges over one transport that share one timeout: the first obtains a token, the
second the answer, with what time the first has left.  A datagram is accepted as a token response by
its size alone; whether it grants a token is found out afterwards, and if it does not, the query is
over.
-/

namespace ServerDiscovery

/-- Why a datagram does not have the size of a token response. -/
def acceptToken (datagram : Bytes) : Except KindError Unit :=
  if datagram.length = tokenResponseSize then .ok () else .error .unrecognized

/-- Why a datagram is no answer to `query`. -/
def acceptAnswer (query : Query) (datagram : Bytes) : Except KindError Unit :=
  if datagram.isEmpty then .error .unrecognized else expectKind (.answer query) datagram

theorem acceptToken_eq_ok_iff {datagram : Bytes} :
    acceptToken datagram = .ok () ↔ datagram.length = tokenResponseSize := by
  unfold acceptToken
  by_cases h : datagram.length = tokenResponseSize <;> simp [h]

theorem acceptAnswer_eq_ok_iff {query : Query} {datagram : Bytes} :
    acceptAnswer query datagram = .ok () ↔ classify datagram = .ok (.answer query) := by
  unfold acceptAnswer
  cases datagram with
  | nil => simp [classify, answerHeaderSize]
  | cons byte rest => rw [← expectKind_eq_ok_iff]; rfl

/-- The exchange that obtains a token. -/
def tokenExchange (client : Nonce) (timeout : Duration) (policy : RetryPolicy) : Exchange :=
  { request := tokenRequest client, accept := acceptToken, timeout, growth := policy.tokenGrowth,
    policy }

/-- The exchange that obtains the answer to `query`. -/
def Query.exchange (query : Query) (token : Token) (timeout : Duration) (policy : RetryPolicy) :
    Exchange :=
  { request := query.request token, accept := acceptAnswer query, timeout,
    growth := policy.queryGrowth, policy }

/-- A first run, and what came after it. -/
def Run.andThen (first rest : Run σ) : Run σ :=
  { rest with attempts := first.attempts ++ rest.attempts, counts := first.counts ++ rest.counts }

/-- Both exchanges of a query, with the client's half of the token; `none` if one of them is not
over after `limit` attempts. -/
def Query.fetch (query : Query) (client : Nonce) (t : Transport σ) (timeout : Duration)
    (policy : RetryPolicy) (limit : Nat) (now : Instant) (s : σ) : Option (Run σ) := do
  let first ← (tokenExchange client timeout policy).run t limit now s
  match first.result with
  | .error _ => return first
  | .ok response =>
    match parseToken? response with
    | none => return { first with result := .error .invalidToken }
    | some token =>
      let remaining := timeout - Instant.since first.now now
      let second ← (query.exchange token remaining policy).run t limit first.now first.state
      return first.andThen second

end ServerDiscovery
