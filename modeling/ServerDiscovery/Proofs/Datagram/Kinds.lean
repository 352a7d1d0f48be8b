import ServerDiscovery.Exchange.Handshake
import ServerDiscovery.Proofs.Message.ServerInfo
import ServerDiscovery.Proofs.Message.ServerList

/-! # What a datagram is, judged in three places

What a received datagram is gets decided three times: by `classify`, by the engine when it takes a
datagram for the response to what it sent, and by the reader of the response.  They do not ask the
same questions.  The engine takes a token response by its size, and its reader looks at two bytes as
well; everything else is taken by its signature, and a datagram too short for one must not be.

`ReplyKind.judges_agree` says that they never contradict each other.  `classify` gives at most one
answer, the engine accepts exactly that kind, and a reader makes something of no other.  So no
datagram passes for two kinds, and what is accepted fails to be read only for what is in it.
-/

namespace ServerDiscovery

variable {datagram : Bytes} {kind other : ReplyKind} {source : SocketAddress}

/-! ## 1. The engine -/

/-- Why a datagram is no reply of the given kind to the engine. -/
def ReplyKind.accept : ReplyKind → Bytes → Except KindError Unit
  | .token => acceptToken
  | .answer query => acceptAnswer query

/-- **The engine accepts a datagram as what it is.** -/
theorem ReplyKind.accept_eq_ok_iff :
    kind.accept datagram = .ok () ↔ classify datagram = .ok kind := by
  cases kind with
  | token => exact acceptToken_eq_ok_iff.trans classify_eq_token_iff.symm
  | answer query => exact acceptAnswer_eq_ok_iff

/-! ## 2. The readers -/

/-- The reader of replies of the given kind makes something of a datagram. -/
def ReplyKind.Reads : ReplyKind → Bytes → Prop
  | .token, datagram => ∃ token, parseToken? datagram = some token
  | .answer .serverList, datagram => ∃ servers, parseServerList datagram = .ok servers
  | .answer .serverCount, datagram => ∃ count, parseServerCount datagram = .ok count
  | .answer .serverInfo, datagram => ∃ source info, parseServerInfo datagram source = .ok info

theorem parseServerCount_eq_ok_iff {count : UInt16} : parseServerCount datagram = .ok count ↔
    classify datagram = .ok (.answer .serverCount) ∧
      ∃ high low rest, payload datagram = high :: low :: rest ∧ ofBigEndian16 high low = count := by
  rw [← expectKind_eq_ok_iff, parseServerCount]
  cases expectKind (.answer .serverCount) datagram with
  | error e => simp
  | ok _ => rcases payload datagram with _ | ⟨high, _ | ⟨low, rest⟩⟩ <;> simp

/-- **A reader makes something of no other kind.** -/
theorem ReplyKind.Reads.classify (h : kind.Reads datagram) : classify datagram = .ok kind := by
  match kind, h with
  | .token, ⟨granted, h⟩ => exact classify_eq_token_iff.mpr (length_of_parseToken? h)
  | .answer .serverList, ⟨servers, h⟩ => exact (parseServerList_eq_ok_iff.mp h).1.1
  | .answer .serverCount, ⟨count, h⟩ => exact (parseServerCount_eq_ok_iff.mp h).1
  | .answer .serverInfo, ⟨source, info, h⟩ =>
    obtain ⟨hsize, hsignature, -⟩ := parseServerInfo_eq_ok_iff.mp h
    exact classify_eq_answer_iff.mpr ⟨hsize, hsignature⟩

/-! ## 3. What can be wrong with a datagram that was accepted -/

/-- A server list that was accepted is not read only if its payload is not whole entries. -/
theorem parseServerList_eq_error_iff (h : classify datagram = .ok (.answer .serverList))
    {fault : ListFault} : parseServerList datagram = .error fault ↔
      fault = .ragged (payload datagram).length ∧ ¬ entrySize ∣ (payload datagram).length := by
  rw [parseServerList, expectKind_eq_ok_iff.mpr h, Nat.dvd_iff_mod_eq_zero]
  by_cases hwhole : (payload datagram).length % entrySize = 0
  · simp [hwhole]
  · simp [hwhole, eq_comm]

/-- A server count that was accepted is not read only if its payload is too short. -/
theorem parseServerCount_eq_error_iff (h : classify datagram = .ok (.answer .serverCount))
    {e : KindError} : parseServerCount datagram = .error e ↔
      e = .unrecognized ∧ (payload datagram).length < 2 := by
  rw [parseServerCount, expectKind_eq_ok_iff.mpr h]
  rcases payload datagram with _ | ⟨high, _ | ⟨low, rest⟩⟩ <;> simp [eq_comm]

/-- The reader of a payload has no objection to the kind of the datagram. -/
theorem readServerInfo_ne_kind (bytes : Bytes) (e : KindError) :
    readServerInfo source bytes ≠ .error (.kind e) := by
  unfold readServerInfo
  intro h
  split at h
  · cases h
  · split at h
    · split at h <;> cases h
    · cases h

/-- A status record that was accepted is not read only if its payload is not. -/
theorem parseServerInfo_eq_error_iff (h : classify datagram = .ok (.answer .serverInfo))
    {fault : InfoFault} : parseServerInfo datagram source = .error fault ↔
      readServerInfo source (payload datagram) = .error fault ∧ ∀ e, fault ≠ .kind e := by
  rw [parseServerInfo, expectKind_eq_ok_iff.mpr h]
  constructor
  · intro hread
    refine ⟨hread, ?_⟩
    rintro e rfl
    exact readServerInfo_ne_kind _ e hread
  · exact And.left

/-- **Engine, classifier and readers agree.**  A datagram is accepted as what it is and as nothing
else; a reader makes something only of what the engine accepts for it; and of what was accepted a
reader of answers does not doubt the kind, so that it fails only for the payload, as the reader of
tokens fails only for the flag or the message. -/
theorem ReplyKind.judges_agree (datagram : Bytes) :
    -- The engine.
    (∀ kind : ReplyKind, kind.accept datagram = .ok () ↔ classify datagram = .ok kind) ∧
    (∀ kind other : ReplyKind,
      kind.accept datagram = .ok () → other.accept datagram = .ok () → kind = other) ∧
    -- The readers.
    (∀ kind : ReplyKind, kind.Reads datagram → kind.accept datagram = .ok ()) ∧
    (∀ kind other : ReplyKind, kind.Reads datagram → other.Reads datagram → kind = other) ∧
    -- What was accepted.
    (∀ query : Query,
      acceptAnswer query datagram = .ok () → expectKind (.answer query) datagram = .ok ()) ∧
    (acceptToken datagram = .ok () →
      (parseToken? datagram = none ↔
        datagram[0]? ≠ some controlFlag ∨ datagram[7]? ≠ some tokenMessage)) ∧
    (acceptAnswer .serverList datagram = .ok () →
      ∀ fault, parseServerList datagram = .error fault ↔
        fault = .ragged (payload datagram).length ∧ ¬ entrySize ∣ (payload datagram).length) ∧
    (acceptAnswer .serverCount datagram = .ok () →
      ∀ e, parseServerCount datagram = .error e ↔
        e = .unrecognized ∧ (payload datagram).length < 2) ∧
    (acceptAnswer .serverInfo datagram = .ok () →
      ∀ source fault, parseServerInfo datagram source = .error fault ↔
        readServerInfo source (payload datagram) = .error fault ∧ ∀ e, fault ≠ .kind e) := by
  have hunique : ∀ {kind other : ReplyKind}, classify datagram = .ok kind →
      classify datagram = .ok other → kind = other := by
    intro kind other hkind hother
    rw [hkind] at hother
    exact Except.ok.inj hother
  refine ⟨fun kind => ReplyKind.accept_eq_ok_iff, fun kind other hkind hother => ?_,
    fun kind hreads => ReplyKind.accept_eq_ok_iff.mpr hreads.classify,
    fun kind other hkind hother => hunique hkind.classify hother.classify,
    fun query h => expectKind_eq_ok_iff.mpr (acceptAnswer_eq_ok_iff.mp h),
    fun h => parseToken?_eq_none_iff (acceptToken_eq_ok_iff.mp h), fun h fault => ?_,
    fun h e => ?_, fun h source fault => ?_⟩
  · exact hunique (ReplyKind.accept_eq_ok_iff.mp hkind) (ReplyKind.accept_eq_ok_iff.mp hother)
  · exact parseServerList_eq_error_iff (acceptAnswer_eq_ok_iff.mp h)
  · exact parseServerCount_eq_error_iff (acceptAnswer_eq_ok_iff.mp h)
  · exact parseServerInfo_eq_error_iff (acceptAnswer_eq_ok_iff.mp h)

/-- The first twelve bytes of an answer. -/
def answerFront : Bytes := [0x21, 1, 2, 3, 4, 5, 6, 7, 8, 0xFF, 0xFF, 0xFF]

/-- A datagram of twelve bytes is taken for a token response, though it looks like an answer; it is
taken for nothing else, and grants no token because its flag is wrong. -/
theorem ReplyKind.judges_agree_answerFront :
    acceptToken answerFront = .ok () ∧ classify answerFront = .ok .token ∧
      (∀ query : Query, acceptAnswer query answerFront ≠ .ok ()) ∧
      parseToken? answerFront = none := by
  obtain ⟨hiff, hunique, -, -, -, hnone, -⟩ := ReplyKind.judges_agree answerFront
  have haccept : acceptToken answerFront = .ok () := by decide
  refine ⟨haccept, (hiff .token).mp haccept, fun query h => ?_, (hnone haccept).mpr (by decide)⟩
  cases hunique .token (.answer query) haccept h

end ServerDiscovery
