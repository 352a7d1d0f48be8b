import ServerDiscovery.Proofs.Datagram.Cut
import ServerDiscovery.Proofs.Datagram.Kinds
import ServerDiscovery.Proofs.Handshake.Phases

/-! # Requests that come back

A peer, or anyone on the way, can send a client its own requests, or those of others.  A client that
took one of them for a response would take part in a conversation with itself.

No request is recognized as a reply: a token request is far longer than a token response, and has
zeros where an answer has the end of its signature, whatever token stands in front of them; a query
has a signature that no answer has.  Cutting to the receive buffer does not change that
(`Reflected.classify`), because the buffer of a policy is never so small that a request is cut down
to a token response.  So whoever hears nothing but requests fails, and for no other reason than one
who hears nothing at all (`Settings.reflections_never_answer`).
-/

namespace ServerDiscovery

variable {σ : Type} {query : Query} {client : Nonce} {token : Token} {t : Transport σ}
  {timeout : Duration} {policy : RetryPolicy} {limit : Nat} {now : Instant} {s : σ} {run : Run σ}
  {size : Nat} {datagram : Bytes}

/-! ## 1. Requests are no replies -/

/-- A datagram that some client may send. -/
inductive IsRequest : Bytes → Prop
  | token (client : Nonce) : IsRequest (tokenRequest client)
  | query (query : Query) (token : Token) : IsRequest (query.request token)

/-- No query has the signature of an answer. -/
theorem Query.signature_ne_answerSignature (query other : Query) :
    query.signature ≠ other.answerSignature := by
  cases query <;> cases other <;> decide

theorem classify_tokenRequest (client : Nonce) :
    classify (tokenRequest client) = .error .unrecognized := by
  have hsignature : signatureOf (tokenRequest client) =
      [client.second, client.third, client.fourth, 0, 0, 0, 0, 0] := rfl
  refine classify_eq_unrecognized_iff.mpr ⟨?_, ?_, fun query => ?_⟩
  · rw [length_tokenRequest]
    decide
  · rw [length_tokenRequest]
    decide
  · rw [hsignature]
    cases query <;> simp [Query.answerSignature]

theorem Query.classify_request (query : Query) (token : Token) :
    classify (query.request token) = .error .unrecognized := by
  have hlength : answerHeaderSize + signatureSize ≤ (query.request token).length := by
    simp only [Query.request, List.length_append, Query.length_signature]
    exact Nat.le_add_right ..
  have hsignature : signatureOf (query.request token) = query.signature :=
    signatureOf_append rfl query.length_signature _
  refine classify_eq_unrecognized_iff.mpr ⟨Nat.le_of_add_right_le hlength, ?_, fun other => ?_⟩
  · exact Nat.ne_of_gt (Nat.lt_of_lt_of_le (by decide) hlength)
  · rw [hsignature]
    exact query.signature_ne_answerSignature other

theorem IsRequest.classify (h : IsRequest datagram) : classify datagram = .error .unrecognized := by
  cases h with
  | token client => exact classify_tokenRequest client
  | query query token => exact query.classify_request token

/-- A request that comes back to a receive buffer of `size` bytes. -/
def Reflected (size : Nat) (datagram : Bytes) : Prop :=
  ∃ request, IsRequest request ∧ datagram = request.take size

theorem Reflected.classify (hsize : minBufferSize ≤ size) (h : Reflected size datagram) :
    classify datagram = .error .unrecognized := by
  obtain ⟨request, hrequest, rfl⟩ := h
  rw [classify_take (Nat.le_of_add_right_le hsize), hrequest.classify]

/-- **No request is accepted as a reply.** -/
theorem Reflected.not_accept (hsize : minBufferSize ≤ size) (h : Reflected size datagram)
    (kind : ReplyKind) : kind.accept datagram ≠ .ok () := by
  rw [ne_eq, ReplyKind.accept_eq_ok_iff, h.classify hsize]
  exact nofun

/-! ## 2. Who hears nothing but requests -/

/-- All that was received in the given attempts are requests, cut to a buffer of `size` bytes. -/
def HearsOnlyRequests (size : Nat) (attempts : List Attempt) : Prop :=
  ∀ datagram ∈ receivedIn attempts, Reflected size datagram

theorem HearsOnlyRequests.of_append {first rest : List Attempt}
    (h : HearsOnlyRequests size (first ++ rest)) : HearsOnlyRequests size first := by
  intro datagram hmem
  refine h datagram ?_
  rw [receivedIn_append]
  exact List.mem_append_left _ hmem

/-- The run is over without a response: its time is spent, or a send failed. -/
def Run.Unanswered (run : Run σ) : Prop :=
  ∃ e, run.result = .error e ∧ (e = .timeout ∨ FailedSend run.calls e)

/-- An exchange that rejects all that it receives is not answered. -/
theorem Exchange.unanswered_of_rejected {x : Exchange} (h : x.run t limit now s = some run)
    (hrejected : ∀ datagram ∈ receivedIn run.attempts, ¬ x.Accepts datagram) : run.Unanswered := by
  rcases hresult : run.result with e | datagram
  · exact ⟨e, hresult, Exchange.error_cases h hresult⟩
  · obtain ⟨hcall, haccepts⟩ := (Exchange.concluded_of_run h).eq_ok_iff.mp hresult
    exact absurd haccepts (hrejected datagram (List.mem_filterMap.mpr ⟨_, hcall, rfl⟩))

theorem tokenExchange_unanswered (hsize : minBufferSize ≤ size)
    (h : (tokenExchange client timeout policy).run t limit now s = some run)
    (hreflected : HearsOnlyRequests size run.attempts) : run.Unanswered :=
  Exchange.unanswered_of_rejected h fun datagram hmem =>
    (hreflected datagram hmem).not_accept hsize .token

theorem Query.exchange_unanswered (hsize : minBufferSize ≤ size)
    (h : (query.exchange token timeout policy).run t limit now s = some run)
    (hreflected : HearsOnlyRequests size run.attempts) : run.Unanswered :=
  Exchange.unanswered_of_rejected h fun datagram hmem =>
    (hreflected datagram hmem).not_accept hsize (.answer query)

/-- A query that hears nothing but requests does not get beyond its first phase. -/
theorem Query.fetch_unanswered (hsize : minBufferSize ≤ size)
    (h : query.fetch client t timeout policy limit now s = some run)
    (hreflected : HearsOnlyRequests size run.attempts) : run.Unanswered := by
  have hfirst {first : Run σ} {response : Bytes}
      (hrun : (tokenExchange client timeout policy).run t limit now s = some first)
      (hresult : first.result = .ok response) : ¬ HearsOnlyRequests size first.attempts := by
    intro hheard
    obtain ⟨e, herror, -⟩ := tokenExchange_unanswered hsize hrun hheard
    rw [hresult] at herror
    cases herror
  cases Query.fetch_eq_some_iff.mp h with
  | refused hrun _ => exact tokenExchange_unanswered hsize hrun hreflected
  | ungranted hrun hresult _ => exact (hfirst hrun hresult hreflected).elim
  | asked hrun hresult _ _ => exact (hfirst hrun hresult hreflected.of_append).elim

/-- **Requests that come back are never a response.**  Whatever the settings, a run with their
policy that hears nothing but requests, its own or those of others, of any kind and with any token,
is not answered: not when it asks for a token, not when it asks with one, not when it does both. -/
theorem Settings.reflections_never_answer (settings : Settings) (t : Transport σ)
    (timeout : Duration) (limit : Nat) (now : Instant) (s : σ) (run : Run σ)
    (hreflected : HearsOnlyRequests settings.policy.maxResponseSize.toNat run.attempts) :
    (∀ client, (tokenExchange client timeout settings.policy).run t limit now s = some run →
      run.Unanswered) ∧
    (∀ (query : Query) token,
      (query.exchange token timeout settings.policy).run t limit now s = some run →
        run.Unanswered) ∧
    ∀ (query : Query) client,
      query.fetch client t timeout settings.policy limit now s = some run → run.Unanswered := by
  have hsize := settings.minBufferSize_le
  exact ⟨fun client h => tokenExchange_unanswered hsize h hreflected,
    fun query token h => Query.exchange_unanswered hsize h hreflected,
    fun query client h => Query.fetch_unanswered hsize h hreflected⟩

/-- A line to a peer that sends back what it gets. -/
def echoLine : Line ScriptedPeer :=
  let echo : Script := { last := fun request => .answer [⟨.ofMillis 20, .ok request⟩] }
  { peer := { token := echo, query := echo } }

/-- Settings that ask for a receive buffer of the size of a token response. -/
def tinyBuffer : Settings :=
  { retry := { maxBurst := 1 }, transport := { maxBufferSize := UInt64.ofNat tokenResponseSize } }

/-- A query to a peer that sends back what it gets hears its token request three times, and is not
answered. -/
theorem Settings.reflections_never_answer_echo :
    ∃ run, Query.serverList.fetch ⟨1, 2, 3, 4⟩ (Line.transport ScriptedPeer.react) (.ofMillis 70)
        tinyBuffer.policy 9 0 echoLine = some run ∧
      receivedIn run.attempts = List.replicate 3 ((tokenRequest ⟨1, 2, 3, 4⟩).take minBufferSize) ∧
      HearsOnlyRequests tinyBuffer.policy.maxResponseSize.toNat run.attempts ∧ run.Unanswered := by
  have hclosed : (Query.serverList.fetch ⟨1, 2, 3, 4⟩ (Line.transport ScriptedPeer.react)
      (.ofMillis 70) tinyBuffer.policy 9 0 echoLine).map (fun run => receivedIn run.attempts) =
      some (List.replicate 3 ((tokenRequest ⟨1, 2, 3, 4⟩).take minBufferSize)) := by decide +kernel
  obtain ⟨run, hrun, hreceived⟩ := Option.map_eq_some_iff.mp hclosed
  have hreflected : HearsOnlyRequests tinyBuffer.policy.maxResponseSize.toNat run.attempts := by
    intro datagram hmem
    rw [hreceived] at hmem
    exact ⟨tokenRequest ⟨1, 2, 3, 4⟩, .token _, List.eq_of_mem_replicate hmem⟩
  obtain ⟨-, -, hfetch⟩ := Settings.reflections_never_answer tinyBuffer
    (Line.transport ScriptedPeer.react) (.ofMillis 70) 9 0 echoLine run hreflected
  exact ⟨run, hrun, hreceived, hreflected, hfetch .serverList ⟨1, 2, 3, 4⟩ hrun⟩

end ServerDiscovery
