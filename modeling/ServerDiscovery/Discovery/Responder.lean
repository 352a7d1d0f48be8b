import ServerDiscovery.Exchange.Line
import ServerDiscovery.Message.Token

/-! # Peers that answer

The other end of the handshake.  A responder grants a token to whoever asks for one, and answers a
query that carries the half of the token which it chose.  Anything else gets no answer.

Responders can be less than well-behaved: each part of what they say can be replaced by a datagram
of any content, or left out; they can miss the first datagrams that reach them, and send their
answers in several copies.
-/

namespace ServerDiscovery

/-- How a responder reacts to a request for a token. -/
inductive TokenManner where
  /-- It grants one. -/
  | grants
  /-- It sends the same datagram to everyone. -/
  | fixed (datagram : Bytes)
  /-- It sends nothing. -/
  | silent
deriving DecidableEq, Repr

/-- How a responder reacts to a query. -/
inductive AnswerManner where
  /-- It answers the query with a payload. -/
  | answers (payload : Bytes)
  /-- It sends the same datagram to everyone. -/
  | fixed (datagram : Bytes)
  /-- It sends nothing. -/
  | silent
deriving DecidableEq, Repr

/-- A peer that answers. -/
structure Responder where
  /-- Its half of every token. -/
  nonce : Nonce
  token : TokenManner := .grants
  answer : Query → AnswerManner := fun _ => .silent
  /-- The number of datagrams that it still misses. -/
  missing : Nat := 0
  /-- The number of copies of each answer. -/
  copies : Nat := 1

/-- The size of the smallest datagram that is a request for a token: the header, the message and the
client's half of it. -/
def minTokenRequestSize : Nat := 12

/-- The time that an answer takes. -/
def answerDelay : Duration := .ofMillis 1

/-- The datagram that answers `query`. -/
def Query.response (query : Query) (token : Token) (payload : Bytes) : Bytes :=
  [queryFlag] ++ token.client.toBytes ++ token.server.toBytes ++ query.answerSignature ++ payload

/-- The query with the given signature. -/
def Query.ofSignature? (signature : Bytes) : Option Query :=
  [serverList, serverCount, serverInfo].find? fun query => query.signature = signature

namespace Responder

/-- What the responder sends to a client that asked for a token, if `request` does. -/
def replyToTokenRequest (r : Responder) (request : Bytes) : Option Bytes :=
  if request.length < minTokenRequestSize then none
  else match r.token with
    | .grants =>
      (Nonce.ofBytes? (request.drop 8)).map fun client => tokenResponse ⟨client, r.nonce⟩
    | .fixed datagram => some datagram
    | .silent => none

/-- What the responder sends to a client that asked a query, if `request` does and carries the half
of the token that the responder chose. -/
def replyToQuery (r : Responder) (request : Bytes) : Option Bytes := do
  let server ← Nonce.ofBytes? (request.drop 1)
  let client ← Nonce.ofBytes? (request.drop 5)
  let query ← Query.ofSignature? (signatureOf request)
  if server ≠ r.nonce then none
  match r.answer query with
  | .answers payload => return query.response ⟨client, server⟩ payload
  | .fixed datagram => return datagram
  | .silent => none

/-- What the responder sends to a client that sent `request`. -/
def reply? (r : Responder) (request : Bytes) : Option Bytes :=
  if request.head? = some controlFlag then r.replyToTokenRequest request
  else if request.head? = some queryFlag then r.replyToQuery request
  else none

/-- The responder's part in an exchange. -/
def react (r : Responder) (request : Bytes) : Reaction × Responder :=
  if r.missing = 0 then
    match r.reply? request with
    | some datagram => (.answer (List.replicate r.copies ⟨answerDelay, .ok datagram⟩), r)
    | none => (.answer [], r)
  else (.answer [], { r with missing := r.missing - 1 })

end Responder

end ServerDiscovery
