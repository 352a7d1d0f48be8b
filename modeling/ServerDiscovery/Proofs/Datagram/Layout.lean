import Mathlib.Logic.Function.Basic
import ServerDiscovery.Discovery.Responder
import ServerDiscovery.Proofs.Wire.Integer
import ServerDiscovery.Wire.FieldBuffer

/-! # What a peer reads off a request

A client and its peers never see each other's tokens but through datagrams, so the two rounds of a
handshake work only if each side reads what the other wrote.  The layout has no delimiters: the
halves of a token may be any bytes, also bytes that look like a flag or a signature, and everything
is told apart by its place.

Here the places are those of the layout as it is documented.  A client reads its own half and the
peer's off the response to its token request (`parseToken?_echo`), a peer reads both halves, the
question and the number of the token off a query (`Query.read?_request`, `popInteger_request`), and
nothing is left over.  So no two requests are the same datagram.

The number of the token is stated twice, as four bytes and as a packed integer.  It is negative
where the first of the four bytes is at least 128, and its packed form then has another length; the
two statements agree all the same (`Nonce.toInt_toInt32`).
-/

namespace ServerDiscovery

open Wire (FieldBuffer)

variable {query : Query} {token : Token}

/-! ## 1. Halves of tokens -/

/-- The number in the four bytes, most significant first. -/
def Nonce.bigEndian (n : Nonce) : Nat :=
  ((n.first.toNat * 256 + n.second.toNat) * 256 + n.third.toNat) * 256 + n.fourth.toNat

theorem Nonce.bigEndian_lt (n : Nonce) : n.bigEndian < 2 ^ 32 := by
  have h₀ := n.first.toNat_lt
  have h₁ := n.second.toNat_lt
  have h₂ := n.third.toNat_lt
  have h₃ := n.fourth.toNat_lt
  unfold bigEndian
  omega

/-- The number of a nonce is that of its four bytes as a signed number of 32 bits. -/
theorem Nonce.toInt_toInt32 (n : Nonce) :
    n.toInt32.toInt = (n.bigEndian : Int).bmod (2 ^ 32) := by
  have hword : n.toInt32.toUInt32.toNat = n.bigEndian :=
    Wire.toNat_toUInt32_toInt32 n.bigEndian_lt
  rw [← hword]
  exact BitVec.toInt_eq_toNat_bmod _

theorem Nonce.toBytes_injective : Function.Injective Nonce.toBytes := by
  rintro ⟨a, b, c, d⟩ ⟨a', b', c', d'⟩ h
  cases h
  rfl

/-! ## 2. Token requests -/

/-- The client's half is read off the response that repeats it, whatever the peer's half is. -/
theorem parseToken?_echo (client server : Nonce) :
    parseToken? ([0x04, 0, 0] ++ ((tokenRequest client).drop 8).take 4 ++ [0x05]
      ++ server.toBytes) = some ⟨client, server⟩ := rfl

/-- Token requests for different halves are different. -/
theorem tokenRequest_injective : Function.Injective tokenRequest := by
  intro client other h
  apply Nonce.toBytes_injective
  rw [← client_of_tokenRequest client, h, client_of_tokenRequest other]

/-! ## 3. Queries -/

/-- A query states the peer's half of the token at offset 1. -/
theorem Query.server_of_request (query : Query) (token : Token) :
    ((query.request token).drop 1).take 4 = token.server.toBytes := rfl

theorem Query.signatureOf_request (query : Query) (token : Token) :
    signatureOf (query.request token) = query.signature :=
  signatureOf_append rfl query.length_signature _

theorem Query.payload_request (query : Query) (token : Token) :
    payload (query.request token) =
      if query = .serverInfo then Wire.packInteger token.number else [] :=
  payload_append rfl query.length_signature _

theorem Query.ofSignature?_signature (query : Query) :
    Query.ofSignature? query.signature = some query := by
  cases query <;> rfl

/-- What a peer reads off a query. -/
def Query.read? (request : Bytes) : Option (Query × Token) := do
  let server ← Nonce.ofBytes? (request.drop 1)
  let client ← Nonce.ofBytes? (request.drop 5)
  let query ← Query.ofSignature? (signatureOf request)
  return (query, ⟨client, server⟩)

/-- **A peer reads off a query what was asked, and with which token.** -/
theorem Query.read?_request (query : Query) (token : Token) :
    Query.read? (query.request token) = some (query, token) := by
  have hserver : Nonce.ofBytes? ((query.request token).drop 1) = some token.server := rfl
  have hclient : Nonce.ofBytes? ((query.request token).drop 5) = some token.client := rfl
  rw [read?, hserver, hclient, signatureOf_request, ofSignature?_signature]
  rfl

/-- Different queries, and queries with different tokens, are different datagrams. -/
theorem Query.request_injective :
    Function.Injective fun asked : Query × Token => asked.1.request asked.2 := by
  intro asked other h
  have hread : Query.read? (asked.1.request asked.2) = Query.read? (other.1.request other.2) :=
    congrArg Query.read? h
  rw [read?_request, read?_request] at hread
  exact Option.some.inj hread

/-- The number of the token is the only field of a query for a status record. -/
theorem popInteger_request (token : Token) :
    (⟨payload (Query.serverInfo.request token)⟩ : FieldBuffer).popInteger =
      (.ok token.number, {}) := by
  refine FieldBuffer.popWith_eq_ok_iff.mpr ?_
  have hread := Wire.unpackInteger_packInteger_append token.number []
  rwa [List.append_nil] at hread

/-! ## 4. Both sides -/

/-- **Client and peer read what the other wrote.**  From the response that repeats a token request
the client reads its half of the token and the peer's; off a query the peer reads both halves, the
signature, and behind the signature nothing or the number of the token.  So requests are told apart
whenever they ask for different things, or with different tokens. -/
theorem handshake_layout :
    (∀ client server : Nonce,
      parseToken? ([0x04, 0, 0] ++ ((tokenRequest client).drop 8).take 4 ++ [0x05]
        ++ server.toBytes) = some ⟨client, server⟩) ∧
    (∀ (query : Query) (token : Token),
      (query.request token).head? = some 0x21 ∧
      ((query.request token).drop 1).take 4 = token.server.toBytes ∧
      ((query.request token).drop 5).take 4 = token.client.toBytes ∧
      ((query.request token).drop 9).take 8 = query.signature ∧
      Query.read? (query.request token) = some (query, token)) ∧
    (∀ token : Token,
      (Query.serverList.request token).drop 17 = [] ∧
      (Query.serverCount.request token).drop 17 = [] ∧
      ∃ number, (⟨(Query.serverInfo.request token).drop 17⟩ : FieldBuffer).popInteger =
          (.ok number, {}) ∧
        number.toInt = (token.client.bigEndian : Int).bmod (2 ^ 32)) ∧
    Function.Injective tokenRequest ∧
    Function.Injective fun asked : Query × Token => asked.1.request asked.2 := by
  refine ⟨parseToken?_echo, fun query token => ?_, fun token => ?_, tokenRequest_injective,
    Query.request_injective⟩
  · exact ⟨query.head?_request token, query.server_of_request token, query.client_of_request token,
      query.signatureOf_request token, query.read?_request token⟩
  · exact ⟨Query.payload_request .serverList token, Query.payload_request .serverCount token,
      token.number, popInteger_request token, token.client.toInt_toInt32⟩

end ServerDiscovery
