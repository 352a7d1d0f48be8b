import ServerDiscovery.Proofs.Handshake.Phases

/-! # The client's half of the token

A client chooses its half of the token, and a peer is meant to repeat it.  But whether it does is
not checked: the token response is accepted by its size, and both halves are read off it.  So a
query states the half that stands in the response, which need not be the one that the client chose.

`Query.clientBound_attempts_iff` says exactly when the queries state what the token requests stated:
when the first datagram of the size of a token response repeats it.
`Query.not_clientBound_forgedGrant` is a run in which it does not.
-/

namespace ServerDiscovery

variable {σ : Type} {query : Query} {client : Nonce} {t : Transport σ} {timeout : Duration}
  {policy : RetryPolicy} {limit : Nat} {now : Instant} {s : σ} {run first : Run σ}
  {response : Bytes} {token : Token}

/-! ## 1. Halves of tokens in datagrams -/

/-- The client's half as a token request states it. -/
def halfInTokenRequest (datagram : Bytes) : Bytes := (datagram.drop 8).take 4

/-- The client's half as a query states it. -/
def halfInQuery (datagram : Bytes) : Bytes := (datagram.drop 5).take 4

/-- The client's half as a token response states it. -/
def halfInResponse (datagram : Bytes) : Bytes := (datagram.drop 3).take 4

/-- The token requests among the datagrams that were sent. -/
def tokenRequestsIn (attempts : List Attempt) : List Bytes :=
  (sentIn attempts).filter fun datagram => datagram.head? = some controlFlag

/-- The queries among the datagrams that were sent. -/
def queriesIn (attempts : List Attempt) : List Bytes :=
  (sentIn attempts).filter fun datagram => datagram.head? = some queryFlag

/-- The first datagram received that has the size of a token response. -/
def tokenResponseIn? (attempts : List Attempt) : Option Bytes :=
  (receivedIn attempts).find? fun datagram => datagram.length = tokenResponseSize

/-- Every query states the half that the token requests state. -/
def ClientBound (attempts : List Attempt) : Prop :=
  ∀ asked ∈ queriesIn attempts, ∀ requested ∈ tokenRequestsIn attempts,
    halfInQuery asked = halfInTokenRequest requested

/-! ## 2. What an exchange with a response has sent and received -/

/-- An exchange that has a response has sent its request. -/
theorem Exchange.request_mem_sentIn_of_ok {x : Exchange} (h : x.run t limit now s = some run)
    (hresult : run.result = .ok response) : x.request ∈ sentIn run.attempts := by
  obtain ⟨attempts, counts, there, last, -, -, he, rfl⟩ := Exchange.run_eq_some_iff.mp h
  rw [Run.after, sentIn_append]
  refine List.mem_append_right _ ?_
  cases he with
  | spent _ => cases hresult
  | @final a _ _ _ _ _ ha =>
    have hone := x.policy.one_le_copies there.factor
    cases Exchange.attempted_of_eq ha with
    | broken _ _ => cases hresult
    | answered _ _ =>
      rw [sentIn, callsOf_cons, callsOf_nil, List.append_nil, Attempt.filterMap_sent?_calls]
      exact List.mem_replicate.mpr ⟨Nat.ne_of_gt hone, rfl⟩

/-- Before its response an exchange has received only datagrams that it rejected. -/
theorem Exchange.receivedIn_of_ok {x : Exchange} (h : x.run t limit now s = some run)
    (hresult : run.result = .ok response) :
    ∃ rejected, receivedIn run.attempts = rejected ++ [response] ∧
      ∀ datagram ∈ rejected, ¬ x.Accepts datagram := by
  have hc := Exchange.concluded_of_run h
  rw [hresult] at hc
  obtain ⟨earlier, hcalls, hu⟩ := hc.last_of_ok
  refine ⟨earlier.filterMap Call.received?, ?_, fun datagram hmem => ?_⟩
  · rw [receivedIn, ← Run.calls, hcalls, List.filterMap_append]
    rfl
  · obtain ⟨call, hcall, hreceived⟩ := List.mem_filterMap.mp hmem
    have hverdict := hu call hcall
    unfold Call.received? at hreceived
    split at hreceived
    · cases hreceived
      exact Exchange.verdict_receive_eq_none_iff.mp hverdict
    · cases hreceived

/-- The response to a token request is the first datagram of its size. -/
theorem tokenResponseIn?_of_ok
    (hfirst : (tokenExchange client timeout policy).run t limit now s = some first)
    (hresult : first.result = .ok response) (rest : List Attempt) :
    tokenResponseIn? (first.attempts ++ rest) = some response := by
  obtain ⟨rejected, hreceived, hrejected⟩ := Exchange.receivedIn_of_ok hfirst hresult
  have hnone : rejected.find? (fun datagram => datagram.length = tokenResponseSize) = none := by
    refine List.find?_eq_none.mpr fun datagram hmem hsize => ?_
    exact hrejected datagram hmem (acceptToken_eq_ok_iff.mpr (of_decide_eq_true hsize))
  have hlength := length_of_tokenExchange hfirst hresult
  rw [tokenResponseIn?, receivedIn_append, hreceived, List.find?_append, List.find?_append, hnone]
  simp [hlength]

/-! ## 3. What is stated -/

/-- A query states the half of its token. -/
theorem Query.halfInQuery_request (query : Query) (token : Token) :
    halfInQuery (query.request token) = token.client.toBytes := query.client_of_request token

/-- Token requests state the half that the client chose. -/
theorem Query.halfInTokenRequest_of_mem {requested : Bytes}
    (h : requested ∈ tokenRequestsIn (query.attempts client t timeout policy limit now s)) :
    halfInTokenRequest requested = client.toBytes := by
  obtain ⟨hmem, hhead⟩ := List.mem_filter.mp h
  rcases Query.of_mem_sentIn_attempts hmem with rfl | ⟨first, token, -, rfl⟩
  · exact client_of_tokenRequest client
  · rw [Query.head?_request] at hhead
    exact absurd hhead (by decide)

/-- A query is made with the token that was granted. -/
theorem Query.grant_of_mem_queriesIn {asked : Bytes}
    (h : asked ∈ queriesIn (query.attempts client t timeout policy limit now s)) :
    ∃ first token, tokenGrant client t timeout policy limit now s = some (first, token) ∧
      asked = query.request token := by
  obtain ⟨hmem, hhead⟩ := List.mem_filter.mp h
  rcases Query.of_mem_sentIn_attempts hmem with rfl | hgranted
  · rw [head?_tokenRequest] at hhead
    exact absurd hhead (by decide)
  · exact hgranted

/-- Before a query a token was requested, and the first datagram of the size of a token response
states the half that the query states. -/
theorem Query.response_of_mem_queriesIn {asked : Bytes}
    (h : asked ∈ queriesIn (query.attempts client t timeout policy limit now s)) :
    tokenRequest client ∈ tokenRequestsIn (query.attempts client t timeout policy limit now s) ∧
    ∃ response,
      tokenResponseIn? (query.attempts client t timeout policy limit now s) = some response ∧
        halfInQuery asked = halfInResponse response := by
  obtain ⟨first, token, hgrant, rfl⟩ := Query.grant_of_mem_queriesIn h
  obtain ⟨response, hfirst, hresult, hparse⟩ := exists_response_of_tokenGrant hgrant
  have hattempts := Exchange.attempts_of_run hfirst
  refine ⟨List.mem_filter.mpr ⟨?_, rfl⟩, response, ?_, ?_⟩
  · rw [Query.attempts, hattempts, sentIn_append]
    exact List.mem_append_left _ (Exchange.request_mem_sentIn_of_ok hfirst hresult)
  · rw [Query.attempts, hattempts]
    exact tokenResponseIn?_of_ok hfirst hresult _
  · rw [Query.halfInQuery_request]
    exact (client_of_parseToken? hparse).symm

/-- **When the queries are bound to the client's half.**  Token requests state the half that the
client chose, and queries the half that the first datagram of the size of a token response states.
So they agree exactly if no query is sent, or that datagram repeats what the client chose. -/
theorem Query.clientBound_attempts_iff (query : Query) (client : Nonce) (t : Transport σ)
    (timeout : Duration) (policy : RetryPolicy) (limit : Nat) (now : Instant) (s : σ) :
    (∀ requested ∈ tokenRequestsIn (query.attempts client t timeout policy limit now s),
      halfInTokenRequest requested = client.toBytes) ∧
    (∀ asked ∈ queriesIn (query.attempts client t timeout policy limit now s), ∃ response,
      tokenResponseIn? (query.attempts client t timeout policy limit now s) = some response ∧
        halfInQuery asked = halfInResponse response) ∧
    (ClientBound (query.attempts client t timeout policy limit now s) ↔
      queriesIn (query.attempts client t timeout policy limit now s) = [] ∨
        ∃ response,
          tokenResponseIn? (query.attempts client t timeout policy limit now s) = some response ∧
            halfInResponse response = client.toBytes) ∧
    ∀ run, query.fetch client t timeout policy limit now s = some run →
      run.attempts = query.attempts client t timeout policy limit now s := by
  refine ⟨fun requested => Query.halfInTokenRequest_of_mem,
    fun asked h => (Query.response_of_mem_queriesIn h).2, ⟨fun hbound => ?_, fun h => ?_⟩,
    fun run h => (Query.attempts_of_fetch h).symm⟩
  · rcases hasked : queriesIn (query.attempts client t timeout policy limit now s) with
      _ | ⟨asked, others⟩
    · exact .inl rfl
    · have hmem : asked ∈ queriesIn (query.attempts client t timeout policy limit now s) := by
        rw [hasked]
        exact List.mem_cons_self
      obtain ⟨hrequested, response, hresponse, hhalf⟩ := Query.response_of_mem_queriesIn hmem
      refine .inr ⟨response, hresponse, ?_⟩
      rw [← hhalf, hbound asked hmem _ hrequested]
      exact client_of_tokenRequest client
  · intro asked hasked requested hrequested
    rcases h with hnone | ⟨response, hresponse, hhalf⟩
    · rw [hnone] at hasked
      cases hasked
    · obtain ⟨-, other, hother, hstated⟩ := Query.response_of_mem_queriesIn hasked
      rw [hresponse] at hother
      cases hother
      rw [hstated, hhalf, Query.halfInTokenRequest_of_mem hrequested]

/-- A line to a directory that grants a token for a half that nobody here chose. -/
def forgedGrant : Line ScriptedPeer :=
  { peer := { token := { first :=
      [.sends [⟨.ofMillis 1, .ok [4, 0, 0, 0xA1, 0xB2, 0xC3, 0xD4, 5, 9, 9, 9, 9]⟩]] } } }

/-- The queries of a run are not bound to the half that the client chose. -/
theorem Query.not_clientBound_forgedGrant :
    ¬ ∀ (query : Query) (client : Nonce) (t : Transport (Line ScriptedPeer)) (timeout : Duration)
      (policy : RetryPolicy) (limit : Nat) (now : Instant) (s : Line ScriptedPeer),
      ∀ run, query.fetch client t timeout policy limit now s = some run →
        ClientBound run.attempts := by
  intro h
  have hclosed : (Query.serverList.fetch ⟨1, 2, 3, 4⟩ (Line.transport ScriptedPeer.react)
      (.ofMillis 70) singleCopies 3 0 forgedGrant).map
        (fun run => (tokenRequestsIn run.attempts, queriesIn run.attempts)) =
      some ([tokenRequest ⟨1, 2, 3, 4⟩],
        List.replicate 2 (Query.serverList.request ⟨⟨0xA1, 0xB2, 0xC3, 0xD4⟩, ⟨9, 9, 9, 9⟩⟩)) := by
    decide +kernel
  obtain ⟨run, hrun, heq⟩ := Option.map_eq_some_iff.mp hclosed
  obtain ⟨hrequested, hasked⟩ := Prod.mk.inj heq
  have hbound := h _ _ _ _ _ _ _ _ run hrun
  rw [ClientBound, hrequested, hasked] at hbound
  have hhalf := hbound _ List.mem_cons_self _ List.mem_cons_self
  exact absurd hhalf (by decide)

end ServerDiscovery
