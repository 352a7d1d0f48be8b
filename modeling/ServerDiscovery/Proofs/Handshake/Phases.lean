import ServerDiscovery.Exchange.Handshake
import ServerDiscovery.Exchange.Script
import ServerDiscovery.Proofs.Exchange.Outcome

/-! # The two phases of a query

A query asks for a token first and for its answer second, over one transport and within one timeout.
What is sent in the first phase may be answered in the second, and nothing stops a peer from sending
what nobody asked for; so the phases are told apart by what the client does and not by what arrives.

`Query.Fetched` lists the three things that a query can have done when it is over: it obtained no
token response, or one that grants no token, or it went on to ask.  Everything about queries is read
off this inversion and what is known of a single exchange.

`Query.attempts` are the attempts of both phases, whether or not the query is over after them.
`Query.fetch_phases` says what is sent in them, what is handed over, and what can come of it, and
that a log of the transport shows the same.
-/

namespace ServerDiscovery

variable {σ : Type} {query : Query} {client : Nonce} {t : Transport σ} {timeout : Duration}
  {policy : RetryPolicy} {limit : Nat} {now : Instant} {s : σ} {run first second : Run σ}
  {response : Bytes} {token : Token}

/-! ## 1. What a query does -/

section Equations

/-- A query is not over before its first phase is. -/
theorem Query.fetch_of_none
    (hfirst : (tokenExchange client timeout policy).run t limit now s = none) :
    query.fetch client t timeout policy limit now s = none := by
  simp [Query.fetch, hfirst]

variable (hfirst : (tokenExchange client timeout policy).run t limit now s = some first)

include hfirst

/-- A query that obtains no token response is over. -/
theorem Query.fetch_of_error {e : Error} (hresult : first.result = .error e) :
    query.fetch client t timeout policy limit now s = some first := by
  simp [Query.fetch, hfirst, hresult]

/-- A query that is granted no token is over. -/
theorem Query.fetch_of_ungranted (hresult : first.result = .ok response)
    (hparse : parseToken? response = none) :
    query.fetch client t timeout policy limit now s =
      some { first with result := .error .invalidToken } := by
  simp [Query.fetch, hfirst, hresult, hparse]

/-- A query that is granted a token goes on to ask, with what time is left. -/
theorem Query.fetch_of_granted (hresult : first.result = .ok response)
    (hparse : parseToken? response = some token) :
    query.fetch client t timeout policy limit now s =
      ((query.exchange token (timeout - Instant.since first.now now) policy).run t limit first.now
        first.state).map first.andThen := by
  simp only [Query.fetch, hfirst, Option.bind_eq_bind, Option.bind_some, hresult, hparse]
  rw [Option.map_eq_bind]
  rfl

end Equations

/-- The record of a query is honest, as that of an exchange is. -/
theorem Query.fetch_logged (query : Query) (client : Nonce) (t : Transport σ) (timeout : Duration)
    (policy : RetryPolicy) (limit : Nat) (now : Instant) (s : σ) (log : List Call) :
    query.fetch client t.logged timeout policy limit now (s, log) =
      (query.fetch client t timeout policy limit now s).map fun run =>
        run.logged (log ++ run.calls.filter Call.isTransfer) := by
  have hlogged := (tokenExchange client timeout policy).run_logged t limit now s log
  rcases hfirst : (tokenExchange client timeout policy).run t limit now s with _ | first
  · rw [hfirst, Option.map_none] at hlogged
    rw [Query.fetch_of_none hfirst, Query.fetch_of_none hlogged, Option.map_none]
  · rw [hfirst, Option.map_some] at hlogged
    rcases hresult : first.result with e | response
    · rw [Query.fetch_of_error hfirst hresult, Query.fetch_of_error hlogged hresult,
        Option.map_some]
    · rcases hparse : parseToken? response with _ | token
      · rw [Query.fetch_of_ungranted hfirst hresult hparse,
          Query.fetch_of_ungranted hlogged hresult hparse, Option.map_some]
        rfl
      · rw [Query.fetch_of_granted hfirst hresult hparse,
          Query.fetch_of_granted hlogged hresult hparse]
        simp [Run.logged, Exchange.run_logged, Run.andThen, Run.calls, Function.comp_def]

/-- What a query can have done when it is over. -/
inductive Query.Fetched (query : Query) (client : Nonce) (t : Transport σ) (timeout : Duration)
    (policy : RetryPolicy) (limit : Nat) (now : Instant) (s : σ) : Run σ → Prop
  /-- It obtained no token response. -/
  | refused {first : Run σ} {e : Error}
      (firstRun : (tokenExchange client timeout policy).run t limit now s = some first)
      (result : first.result = .error e) : Fetched query client t timeout policy limit now s first
  /-- It obtained a token response that grants no token. -/
  | ungranted {first : Run σ} {response : Bytes}
      (firstRun : (tokenExchange client timeout policy).run t limit now s = some first)
      (result : first.result = .ok response) (parse : parseToken? response = none) :
      Fetched query client t timeout policy limit now s
        { first with result := .error .invalidToken }
  /-- It was granted a token and asked. -/
  | asked {first second : Run σ} {response : Bytes} {token : Token}
      (firstRun : (tokenExchange client timeout policy).run t limit now s = some first)
      (result : first.result = .ok response) (parse : parseToken? response = some token)
      (secondRun : (query.exchange token (timeout - Instant.since first.now now) policy).run t limit
        first.now first.state = some second) :
      Fetched query client t timeout policy limit now s (first.andThen second)

/-- **What a query does when it is over.** -/
theorem Query.fetch_eq_some_iff :
    query.fetch client t timeout policy limit now s = some run ↔
      query.Fetched client t timeout policy limit now s run := by
  constructor
  · intro h
    rcases hfirst : (tokenExchange client timeout policy).run t limit now s with _ | first
    · rw [Query.fetch_of_none hfirst] at h
      cases h
    · rcases hresult : first.result with e | response
      · rw [Query.fetch_of_error hfirst hresult] at h
        cases h
        exact .refused hfirst hresult
      · rcases hparse : parseToken? response with _ | token
        · rw [Query.fetch_of_ungranted hfirst hresult hparse] at h
          cases h
          exact .ungranted hfirst hresult hparse
        · rw [Query.fetch_of_granted hfirst hresult hparse] at h
          obtain ⟨second, hsecond, rfl⟩ := Option.map_eq_some_iff.mp h
          exact .asked hfirst hresult hparse hsecond
  · intro h
    cases h with
    | refused hfirst hresult => exact Query.fetch_of_error hfirst hresult
    | ungranted hfirst hresult hparse => exact Query.fetch_of_ungranted hfirst hresult hparse
    | asked hfirst hresult hparse hsecond =>
      rw [Query.fetch_of_granted hfirst hresult hparse, hsecond, Option.map_some]

/-! ## 2. The attempts of both phases -/

/-- The first run of a query with the token that it obtained, if it is over and obtained one. -/
def tokenGrant (client : Nonce) (t : Transport σ) (timeout : Duration) (policy : RetryPolicy)
    (limit : Nat) (now : Instant) (s : σ) : Option (Run σ × Token) :=
  match (tokenExchange client timeout policy).run t limit now s with
  | none => none
  | some first =>
    match first.result with
    | .error _ => none
    | .ok response => (parseToken? response).map fun token => (first, token)

/-- The attempts of a query in its second phase, `limit` of them at most. -/
def Query.attemptsAfter (query : Query) (t : Transport σ) (timeout : Duration)
    (policy : RetryPolicy) (limit : Nat) (now : Instant) :
    (grant : Option (Run σ × Token)) → List Attempt
  | none => []
  | some (first, token) =>
    (query.exchange token (timeout - Instant.since first.now now) policy).attempts t limit first.now
      first.state

/-- The attempts of a query, `limit` of them at most in each phase, whether or not it is over after
them. -/
def Query.attempts (query : Query) (client : Nonce) (t : Transport σ) (timeout : Duration)
    (policy : RetryPolicy) (limit : Nat) (now : Instant) (s : σ) : List Attempt :=
  (tokenExchange client timeout policy).attempts t limit now s
    ++ query.attemptsAfter t timeout policy limit now
      (tokenGrant client t timeout policy limit now s)

theorem tokenGrant_of_error {e : Error}
    (hfirst : (tokenExchange client timeout policy).run t limit now s = some first)
    (hresult : first.result = .error e) :
    tokenGrant client t timeout policy limit now s = none := by
  simp [tokenGrant, hfirst, hresult]

theorem tokenGrant_of_ok
    (hfirst : (tokenExchange client timeout policy).run t limit now s = some first)
    (hresult : first.result = .ok response) :
    tokenGrant client t timeout policy limit now s =
      (parseToken? response).map fun token => (first, token) := by
  simp [tokenGrant, hfirst, hresult]

/-- A token is granted by a response that was accepted. -/
theorem exists_response_of_tokenGrant
    (h : tokenGrant client t timeout policy limit now s = some (first, token)) :
    ∃ response, (tokenExchange client timeout policy).run t limit now s = some first ∧
      first.result = .ok response ∧ parseToken? response = some token := by
  unfold tokenGrant at h
  split at h
  · cases h
  · next run hrun =>
    split at h
    · cases h
    · next response hresult =>
      obtain ⟨token, hparse, heq⟩ := Option.map_eq_some_iff.mp h
      cases heq
      exact ⟨response, hrun, hresult, hparse⟩

/-- The attempts of a query that is over. -/
theorem Query.attempts_of_fetch (h : query.fetch client t timeout policy limit now s = some run) :
    query.attempts client t timeout policy limit now s = run.attempts := by
  cases Query.fetch_eq_some_iff.mp h with
  | refused hfirst hresult =>
    rw [Query.attempts, Exchange.attempts_of_run hfirst, tokenGrant_of_error hfirst hresult]
    exact List.append_nil _
  | ungranted hfirst hresult hparse =>
    rw [Query.attempts, Exchange.attempts_of_run hfirst, tokenGrant_of_ok hfirst hresult, hparse]
    exact List.append_nil _
  | asked hfirst hresult hparse hsecond =>
    rw [Query.attempts, Exchange.attempts_of_run hfirst, tokenGrant_of_ok hfirst hresult, hparse,
      Option.map_some, Query.attemptsAfter, Exchange.attempts_of_run hsecond]
    rfl

/-- **What is sent in both phases.**  Copies of one token request, and after them what the second
phase sends, if a token was granted. -/
theorem Query.sentIn_attempts (query : Query) (client : Nonce) (t : Transport σ)
    (timeout : Duration) (policy : RetryPolicy) (limit : Nat) (now : Instant) (s : σ) :
    ∃ requests, sentIn (query.attempts client t timeout policy limit now s) =
      List.replicate requests (tokenRequest client) ++
        sentIn (query.attemptsAfter t timeout policy limit now
          (tokenGrant client t timeout policy limit now s)) := by
  obtain ⟨requests, hrequests⟩ :=
    (tokenExchange client timeout policy).sentIn_attempts t limit now s
  refine ⟨requests, ?_⟩
  rw [Query.attempts, sentIn_append, hrequests]
  rfl

theorem Query.sentIn_attemptsAfter_some (query : Query) (t : Transport σ) (timeout : Duration)
    (policy : RetryPolicy) (limit : Nat) (now : Instant) (first : Run σ) (token : Token) :
    ∃ queries, sentIn (query.attemptsAfter t timeout policy limit now (some (first, token))) =
      List.replicate queries (query.request token) :=
  Exchange.sentIn_attempts _ t limit first.now first.state

/-- A datagram that is sent is the token request, or the query with the token that was granted. -/
theorem Query.of_mem_sentIn_attempts {datagram : Bytes}
    (h : datagram ∈ sentIn (query.attempts client t timeout policy limit now s)) :
    datagram = tokenRequest client ∨
      ∃ first token, tokenGrant client t timeout policy limit now s = some (first, token) ∧
        datagram = query.request token := by
  obtain ⟨requests, hsent⟩ := query.sentIn_attempts client t timeout policy limit now s
  rw [hsent] at h
  rcases List.mem_append.mp h with h | h
  · exact .inl (List.eq_of_mem_replicate h)
  · rcases hgrant : tokenGrant client t timeout policy limit now s with _ | ⟨first, token⟩
    · rw [hgrant] at h
      cases h
    · obtain ⟨queries, hqueries⟩ :=
        query.sentIn_attemptsAfter_some t timeout policy limit now first token
      rw [hgrant, hqueries] at h
      exact .inr ⟨first, token, rfl, List.eq_of_mem_replicate h⟩

/-- A query is no token request. -/
theorem Query.request_ne_tokenRequest (query : Query) (token : Token) (client : Nonce) :
    query.request token ≠ tokenRequest client := by
  intro h
  have hhead := congrArg List.head? h
  rw [Query.head?_request, head?_tokenRequest] at hhead
  exact absurd hhead (by decide)

/-- No query is sent in the given attempts. -/
def Unasked (attempts : List Attempt) : Prop :=
  ∀ (query : Query) (token : Token), query.request token ∉ sentIn attempts

/-- What is sent before a token is granted is no query. -/
theorem Query.unasked_attempts
    (hgrant : tokenGrant client t timeout policy limit now s = none) :
    Unasked (query.attempts client t timeout policy limit now s) := by
  intro other token hmem
  rcases Query.of_mem_sentIn_attempts hmem with heq | ⟨first, granted, hsome, -⟩
  · exact other.request_ne_tokenRequest token client heq
  · rw [hgrant] at hsome
    cases hsome

/-! ## 3. The outcome of a query -/

/-- Only a datagram of the right size is taken for a token response. -/
theorem length_of_tokenExchange
    (hfirst : (tokenExchange client timeout policy).run t limit now s = some first)
    (hresult : first.result = .ok response) : response.length = tokenResponseSize :=
  acceptToken_eq_ok_iff.mp ((Exchange.concluded_of_run hfirst).eq_ok_iff.mp hresult).2

/-- Only an answer to the query is taken for its answer. -/
theorem Query.classify_of_exchange {datagram : Bytes}
    (hsecond : (query.exchange token timeout policy).run t limit now s = some second)
    (hresult : second.result = .ok datagram) : classify datagram = .ok (.answer query) :=
  acceptAnswer_eq_ok_iff.mp ((Exchange.concluded_of_run hsecond).eq_ok_iff.mp hresult).2

/-- The error is that of a send that failed. -/
inductive FailedSend (calls : List Call) : Error → Prop
  | refused {datagram : Bytes} {e : IoError} (mem : .send datagram (.error e) ∈ calls) :
      FailedSend calls (.io e)
  | short {datagram : Bytes} {written : Nat} (mem : .send datagram (.ok written) ∈ calls)
      (ne : written ≠ datagram.length) : FailedSend calls .shortWrite

theorem FailedSend.prepend {calls : List Call} {e : Error} (first : List Call)
    (h : FailedSend calls e) : FailedSend (first ++ calls) e := by
  cases h with
  | refused mem => exact .refused (List.mem_append_right first mem)
  | short mem ne => exact .short (List.mem_append_right first mem) ne

/-- How an exchange can fail. -/
theorem Exchange.error_cases {x : Exchange} (h : x.run t limit now s = some run) {e : Error}
    (hresult : run.result = .error e) : e = .timeout ∨ FailedSend run.calls e := by
  have hc := Exchange.concluded_of_run h
  rw [hresult] at hc
  rcases hc.result_cases with ⟨_, h⟩ | ⟨io, h⟩ | h | h
  · cases h
  · obtain ⟨datagram, mem⟩ := hc.eq_io_iff.mp h
    cases h
    exact .inr (.refused mem)
  · obtain ⟨datagram, written, mem, ne⟩ := hc.eq_shortWrite_iff.mp h
    cases h
    exact .inr (.short mem ne)
  · cases h
    exact .inl rfl

/-- How a query can fail. -/
theorem Query.Fetched.error_cases (h : query.Fetched client t timeout policy limit now s run)
    {e : Error} (hresult : run.result = .error e) :
    e = .timeout ∨ FailedSend run.calls e ∨ e = .invalidToken := by
  cases h with
  | refused hfirst _ =>
    rcases Exchange.error_cases hfirst hresult with htimeout | hsend
    · exact .inl htimeout
    · exact .inr (.inl hsend)
  | ungranted _ _ _ =>
    cases hresult
    exact .inr (.inr rfl)
  | @asked first second _ _ _ _ _ hsecond =>
    have hcalls : (first.andThen second).calls = first.calls ++ second.calls :=
      callsOf_append first.attempts second.attempts
    rcases Exchange.error_cases hsecond hresult with htimeout | hsend
    · exact .inl htimeout
    · rw [hcalls]
      exact .inr (.inl (hsend.prepend first.calls))

/-- A query that succeeds has its answer. -/
theorem Query.Fetched.classify_of_ok (h : query.Fetched client t timeout policy limit now s run)
    {datagram : Bytes} (hresult : run.result = .ok datagram) :
    classify datagram = .ok (.answer query) := by
  cases h with
  | refused _ herror =>
    rw [herror] at hresult
    cases hresult
  | ungranted _ _ _ => cases hresult
  | asked _ _ _ hsecond => exact Query.classify_of_exchange hsecond hresult

/-- **The two phases of a query.**  Whether or not the query is over, it has sent copies of one
token request and then copies of one query, each possibly none.  It is over without a query if no
token response comes, with the error of the first phase, and if one comes that grants no token.
Otherwise it is what the second exchange makes of it with the token that was granted, in the time
that is left.  It fails for no other reason than an exchange does, apart from a token that is not
granted, and if it succeeds it has an answer to what was asked.  What it sends and receives is what
a log of its transport shows.

No deadline is taken to overflow the clock (`Instant`). -/
theorem Query.fetch_phases (query : Query) (client : Nonce) (t : Transport σ) (timeout : Duration)
    (policy : RetryPolicy) (limit : Nat) (now : Instant) (s : σ) :
    -- What is sent.
    (∃ requests queries token,
      sentIn (query.attempts client t timeout policy limit now s) =
        List.replicate requests (tokenRequest client)
          ++ List.replicate queries (query.request token)) ∧
    -- What comes of the first phase.
    ((tokenExchange client timeout policy).run t limit now s = none →
      query.fetch client t timeout policy limit now s = none ∧
        Unasked (query.attempts client t timeout policy limit now s)) ∧
    (∀ first, (tokenExchange client timeout policy).run t limit now s = some first →
      (∀ e, first.result = .error e →
        query.fetch client t timeout policy limit now s = some first ∧
          Unasked (query.attempts client t timeout policy limit now s)) ∧
      ∀ response, first.result = .ok response →
        response.length = tokenResponseSize ∧
        (parseToken? response = none →
          query.fetch client t timeout policy limit now s =
              some { first with result := .error .invalidToken } ∧
            Unasked (query.attempts client t timeout policy limit now s)) ∧
        ∀ token, parseToken? response = some token →
          query.fetch client t timeout policy limit now s =
              ((query.exchange token (timeout - Instant.since first.now now) policy).run t limit
                first.now first.state).map first.andThen ∧
            ∃ requests queries,
              sentIn (query.attempts client t timeout policy limit now s) =
                List.replicate requests (tokenRequest client)
                  ++ List.replicate queries (query.request token)) ∧
    -- What its transport is asked.
    (∀ log, query.fetch client t.logged timeout policy limit now (s, log) =
      (query.fetch client t timeout policy limit now s).map fun run =>
        run.logged (log ++ run.calls.filter Call.isTransfer)) ∧
    -- What comes of the query.
    ∀ run, query.fetch client t timeout policy limit now s = some run →
      run.attempts = query.attempts client t timeout policy limit now s ∧
      (∀ e, run.result = .error e →
        e = .timeout ∨ FailedSend run.calls e ∨ e = .invalidToken) ∧
      ∀ datagram, run.result = .ok datagram → classify datagram = .ok (.answer query) := by
  obtain ⟨requests, hsent⟩ := query.sentIn_attempts client t timeout policy limit now s
  refine ⟨?_, fun hnone => ⟨Query.fetch_of_none hnone, ?_⟩, fun first hfirst => ⟨?_, ?_⟩,
    query.fetch_logged client t timeout policy limit now s, fun run h => ?_⟩
  · rcases hgrant : tokenGrant client t timeout policy limit now s with _ | ⟨first, token⟩
    · rw [hgrant] at hsent
      exact ⟨requests, 0, default, hsent⟩
    · obtain ⟨queries, hqueries⟩ :=
        query.sentIn_attemptsAfter_some t timeout policy limit now first token
      rw [hgrant, hqueries] at hsent
      exact ⟨requests, queries, token, hsent⟩
  · exact Query.unasked_attempts (by simp [tokenGrant, hnone])
  · intro e hresult
    exact ⟨Query.fetch_of_error hfirst hresult,
      Query.unasked_attempts (tokenGrant_of_error hfirst hresult)⟩
  · intro response hresult
    have hgrant := tokenGrant_of_ok hfirst hresult
    refine ⟨length_of_tokenExchange hfirst hresult, fun hparse => ?_, fun token hparse => ?_⟩
    · rw [hparse, Option.map_none] at hgrant
      exact ⟨Query.fetch_of_ungranted hfirst hresult hparse, Query.unasked_attempts hgrant⟩
    · obtain ⟨queries, hqueries⟩ :=
        query.sentIn_attemptsAfter_some t timeout policy limit now first token
      rw [hgrant, hparse, Option.map_some, hqueries] at hsent
      exact ⟨Query.fetch_of_granted hfirst hresult hparse, requests, queries, hsent⟩
  · have hfetched := Query.fetch_eq_some_iff.mp h
    exact ⟨(Query.attempts_of_fetch h).symm, fun e => hfetched.error_cases,
      fun datagram => hfetched.classify_of_ok⟩

/-- A line to a directory that answers as `lateGrant` does, and then answers the first query with
the token once more and the second with an empty list. -/
def lateAnswer : Line ScriptedPeer :=
  { lateGrant with
    peer := { lateGrant.peer with
      query := { first :=
        [.sends [⟨.ofMillis 1, .ok [4, 0, 0, 1, 2, 3, 4, 5, 9, 9, 9, 9]⟩],
         .sends [⟨.ofMillis 1,
           .ok (List.replicate answerHeaderSize 0 ++ Query.serverList.answerSignature)⟩]] } } }

/-- The second token response is no answer, and the query is sent again. -/
theorem Query.fetch_phases_lateAnswer :
    ∃ run, Query.serverList.fetch ⟨1, 2, 3, 4⟩ (Line.transport ScriptedPeer.react) (.ofSeconds 1 0)
        singleCopies 2 0 lateAnswer = some run ∧
      sentIn run.attempts =
        List.replicate 2 (tokenRequest ⟨1, 2, 3, 4⟩)
          ++ List.replicate 2 (Query.serverList.request ⟨⟨1, 2, 3, 4⟩, ⟨9, 9, 9, 9⟩⟩) ∧
      ∃ datagram, run.result = .ok datagram ∧ classify datagram = .ok (.answer .serverList) := by
  have hclosed : (Query.serverList.fetch ⟨1, 2, 3, 4⟩ (Line.transport ScriptedPeer.react)
      (.ofSeconds 1 0) singleCopies 2 0 lateAnswer).map
        (fun run => (run.result, sentIn run.attempts)) =
      some (.ok (List.replicate answerHeaderSize 0 ++ Query.serverList.answerSignature),
        List.replicate 2 (tokenRequest ⟨1, 2, 3, 4⟩)
          ++ List.replicate 2 (Query.serverList.request ⟨⟨1, 2, 3, 4⟩, ⟨9, 9, 9, 9⟩⟩)) := by
    decide +kernel
  obtain ⟨run, hrun, heq⟩ := Option.map_eq_some_iff.mp hclosed
  obtain ⟨hresult, hsent⟩ := Prod.mk.inj heq
  obtain ⟨-, -, -, -, houtcome⟩ := Query.fetch_phases .serverList ⟨1, 2, 3, 4⟩
    (Line.transport ScriptedPeer.react) (.ofSeconds 1 0) singleCopies 2 0 lateAnswer
  exact ⟨run, hrun, hsent, _, hresult, (houtcome run hrun).2.2 _ hresult⟩

end ServerDiscovery
