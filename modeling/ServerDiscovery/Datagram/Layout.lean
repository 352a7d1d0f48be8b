import ServerDiscovery.Wire.Integer

/-! # The layout of datagrams

A client talks to two kinds of peers with the same datagrams: directories, which know the addresses
of servers, and the servers themselves.  Every query needs a token, so there are two rounds:

* a token request carries the client's half of the token and is answered by twelve bytes that repeat
  it and add the server's half;
* a query carries both halves and a signature of eight bytes, and is answered by a header of nine
  bytes, the signature of the answer, and a payload.

`classify` tells what a received datagram is by its size and its signature alone.  It looks at
nothing behind the signature, so cutting a datagram there does not change what it is.
-/

namespace ServerDiscovery

/-! ## 1. Sizes -/

/-- The exact size of a token response: a control header of seven bytes, the message and the
server's half of the token. -/
def tokenResponseSize : Nat := 12

/-- The size of the header in front of every answer: a flag byte and both halves of the token. -/
def answerHeaderSize : Nat := 9

/-- The size of every signature. -/
def signatureSize : Nat := 8

/-- The smallest receive buffer that holds a header, a signature and a server count. -/
def minBufferSize : Nat := answerHeaderSize + signatureSize + 2

/-- The largest datagram that is read unless a configuration says otherwise. -/
def defaultBufferSize : Nat := 1400

/-- The size of the data of a token request.  It is padded to this size, so that nobody can use a
server to send more than they sent themselves. -/
def tokenRequestDataSize : Nat := 512

/-! ## 2. Queries and replies -/

/-- What can be asked of a peer that issued a token. -/
inductive Query where
  /-- The addresses that a directory knows. -/
  | serverList
  /-- The number of addresses that a directory knows. -/
  | serverCount
  /-- The status record of a server. -/
  | serverInfo
deriving DecidableEq, Repr

/-- What a received datagram can be. -/
inductive ReplyKind where
  | token
  | answer (query : Query)
deriving DecidableEq, Repr

namespace Query

/-- The name of a query. -/
def name : Query → String
  | .serverList => "serverlist"
  | .serverCount => "servercount"
  | .serverInfo => "serverinfo"

/-- The signature of the query; its last four bytes are the ASCII letters `req2`, `cou2`
and `gie3`. -/
def signature : Query → Bytes
  | .serverList => [0xFF, 0xFF, 0xFF, 0xFF, 0x72, 0x65, 0x71, 0x32]
  | .serverCount => [0xFF, 0xFF, 0xFF, 0xFF, 0x63, 0x6F, 0x75, 0x32]
  | .serverInfo => [0xFF, 0xFF, 0xFF, 0xFF, 0x67, 0x69, 0x65, 0x33]

/-- The signature of the answer; its last four bytes are the ASCII letters `lis2`, `siz2`
and `inf3`. -/
def answerSignature : Query → Bytes
  | .serverList => [0xFF, 0xFF, 0xFF, 0xFF, 0x6C, 0x69, 0x73, 0x32]
  | .serverCount => [0xFF, 0xFF, 0xFF, 0xFF, 0x73, 0x69, 0x7A, 0x32]
  | .serverInfo => [0xFF, 0xFF, 0xFF, 0xFF, 0x69, 0x6E, 0x66, 0x33]

/-- The query whose answer has the given signature. -/
def ofAnswerSignature? (signature : Bytes) : Option Query :=
  if signature = serverList.answerSignature then some .serverList
  else if signature = serverCount.answerSignature then some .serverCount
  else if signature = serverInfo.answerSignature then some .serverInfo
  else none

@[simp] theorem length_signature (q : Query) : q.signature.length = signatureSize := by
  cases q <;> rfl

@[simp] theorem length_answerSignature (q : Query) : q.answerSignature.length = signatureSize := by
  cases q <;> rfl

theorem ofAnswerSignature?_eq_some_iff {s : Bytes} {q : Query} :
    ofAnswerSignature? s = some q ↔ s = q.answerSignature := by
  constructor
  · intro h
    unfold ofAnswerSignature? at h
    grind
  · rintro rfl
    cases q <;> rfl

end Query

/-- The name of a kind of reply. -/
def ReplyKind.name : ReplyKind → String
  | .token => "token"
  | .answer query => query.name

/-! ## 3. What is sent -/

/-- Both halves of the right to ask. -/
structure Token where
  /-- Chosen by the client and repeated by the server. -/
  client : Nonce
  /-- Chosen by the server. -/
  server : Nonce
deriving DecidableEq, Repr, Inhabited

/-- The number that a server repeats in its status record. -/
def Token.number (t : Token) : Int32 := t.client.toInt32

/-- The first byte of a control datagram. -/
def controlFlag : UInt8 := 0x04

/-- The first byte of a query. -/
def queryFlag : UInt8 := 0x21

/-- The control message that asks for a token or grants one. -/
def tokenMessage : UInt8 := 0x05

/-- What stands in the place of a token that is not yet known. -/
def noToken : Nonce := ⟨0xFF, 0xFF, 0xFF, 0xFF⟩

/-- The datagram that asks for a token. -/
def tokenRequest (client : Nonce) : Bytes :=
  [controlFlag, 0, 0] ++ noToken.toBytes ++ [tokenMessage] ++ client.toBytes
    ++ List.replicate (tokenRequestDataSize - 5) 0

@[simp] theorem head?_tokenRequest (client : Nonce) :
    (tokenRequest client).head? = some controlFlag := rfl

theorem length_tokenRequest (client : Nonce) :
    (tokenRequest client).length = 7 + tokenRequestDataSize := by
  rw [tokenRequest, List.length_append, List.length_replicate]
  rfl

/-- A token request states the client's half of the token at offset 8. -/
theorem client_of_tokenRequest (client : Nonce) :
    ((tokenRequest client).drop 8).take 4 = client.toBytes := rfl

/-- The datagram that asks `query`.  A server is told the number of the token once more in the
form of a field. -/
def Query.request (query : Query) (token : Token) : Bytes :=
  [queryFlag] ++ token.server.toBytes ++ token.client.toBytes ++ query.signature
    ++ (if query = .serverInfo then Wire.packInteger token.number else [])

@[simp] theorem Query.head?_request (query : Query) (token : Token) :
    (query.request token).head? = some queryFlag := rfl

/-- A query states the client's half of the token at offset 5. -/
theorem Query.client_of_request (query : Query) (token : Token) :
    ((query.request token).drop 5).take 4 = token.client.toBytes := rfl

/-! ## 4. What is received -/

/-- What can be wrong with the kind of a datagram. -/
inductive KindError where
  /-- It is too short for a header. -/
  | headerTooShort
  /-- It has no signature that is known. -/
  | unrecognized
  /-- It is the answer to another query. -/
  | mismatch
deriving DecidableEq, Repr

/-- What a person is told about a kind error. -/
def KindError.message : KindError → String
  | .headerTooShort => "response header is too short"
  | .unrecognized => "invalid response message"
  | .mismatch => "response type does not match request type"

/-- The bytes in the place of a signature. -/
def signatureOf (datagram : Bytes) : Bytes := (datagram.drop answerHeaderSize).take signatureSize

/-- The bytes behind the signature. -/
def payload (datagram : Bytes) : Bytes := datagram.drop (answerHeaderSize + signatureSize)

/-- What a datagram is. -/
def classify (datagram : Bytes) : Except KindError ReplyKind :=
  if datagram.length < answerHeaderSize then .error .headerTooShort
  else if datagram.length = tokenResponseSize then .ok .token
  else match Query.ofAnswerSignature? (signatureOf datagram) with
    | some query => .ok (.answer query)
    | none => .error .unrecognized

/-- Whether a datagram is of the kind that is expected, or what is wrong. -/
def expectKind (expected : ReplyKind) (datagram : Bytes) : Except KindError Unit :=
  match classify datagram with
  | .ok kind => if kind = expected then .ok () else .error .mismatch
  | .error e => .error e

theorem signatureOf_append {header signature : Bytes} (hheader : header.length = answerHeaderSize)
    (hsignature : signature.length = signatureSize) (rest : Bytes) :
    signatureOf (header ++ signature ++ rest) = signature := by
  rw [signatureOf, List.append_assoc, ← hheader, List.drop_left, ← hsignature, List.take_left]

theorem payload_append {header signature : Bytes} (hheader : header.length = answerHeaderSize)
    (hsignature : signature.length = signatureSize) (rest : Bytes) :
    payload (header ++ signature ++ rest) = rest := by
  rw [payload, ← hheader, ← hsignature, ← List.length_append, List.drop_left]

theorem length_signatureOf (datagram : Bytes) :
    (signatureOf datagram).length = min signatureSize (datagram.length - answerHeaderSize) := by
  rw [signatureOf, List.length_take, List.length_drop]

/-- A token response is known by its size, whatever else it looks like. -/
theorem classify_eq_token_iff {datagram : Bytes} :
    classify datagram = .ok .token ↔ datagram.length = tokenResponseSize := by
  unfold classify
  constructor
  · intro h
    split at h
    · cases h
    · split at h
      · assumption
      · split at h <;> cases h
  · intro h
    have hheader : ¬ datagram.length < answerHeaderSize := by
      rw [h]
      decide
    rw [if_neg hheader, if_pos h]

/-- An answer is at least as long as its header and its signature, and is known by the signature. -/
theorem classify_eq_answer_iff {datagram : Bytes} {query : Query} :
    classify datagram = .ok (.answer query) ↔
      answerHeaderSize + signatureSize ≤ datagram.length ∧
        signatureOf datagram = query.answerSignature := by
  have hsize (h : signatureOf datagram = query.answerSignature) :
      min signatureSize (datagram.length - answerHeaderSize) = signatureSize := by
    rw [← length_signatureOf, h, Query.length_answerSignature]
  unfold classify
  constructor
  · intro h
    split at h
    · cases h
    · split at h
      · cases h
      · split at h
        · next hquery =>
          cases h
          have hsignature := Query.ofAnswerSignature?_eq_some_iff.mp hquery
          have := hsize hsignature
          unfold signatureSize answerHeaderSize at *
          exact ⟨by omega, hsignature⟩
        · cases h
  · rintro ⟨hlength, hsignature⟩
    have hheader : ¬ datagram.length < answerHeaderSize := by
      unfold answerHeaderSize at *
      omega
    have htoken : ¬ datagram.length = tokenResponseSize := by
      unfold answerHeaderSize signatureSize tokenResponseSize at *
      omega
    rw [if_neg hheader, if_neg htoken, Query.ofAnswerSignature?_eq_some_iff.mpr hsignature]

/-- A datagram is not recognized if it is no token response and has no signature of an answer. -/
theorem classify_eq_unrecognized_iff {datagram : Bytes} :
    classify datagram = .error .unrecognized ↔
      answerHeaderSize ≤ datagram.length ∧ datagram.length ≠ tokenResponseSize ∧
        ∀ query : Query, signatureOf datagram ≠ query.answerSignature := by
  have hnone : Query.ofAnswerSignature? (signatureOf datagram) = none ↔
      ∀ query : Query, signatureOf datagram ≠ query.answerSignature := by
    simp only [Option.eq_none_iff_forall_ne_some, ne_eq, Query.ofAnswerSignature?_eq_some_iff]
  rw [← hnone, ← Nat.not_lt]
  unfold classify
  by_cases hheader : datagram.length < answerHeaderSize
  · simp [hheader]
  · by_cases htoken : datagram.length = tokenResponseSize
    · rw [if_neg hheader, if_pos htoken]
      simp [htoken]
    · cases Query.ofAnswerSignature? (signatureOf datagram) <;> simp [hheader, htoken]

theorem expectKind_eq_ok_iff {expected : ReplyKind} {datagram : Bytes} :
    expectKind expected datagram = .ok () ↔ classify datagram = .ok expected := by
  unfold expectKind
  cases classify datagram with
  | error e => simp
  | ok kind => by_cases h : kind = expected <;> simp [h]

end ServerDiscovery
